import Mathlib.Logic.Relation
import LibKprintf.Handlers.Table
import LibKprintf.Model.EventThread

/-! Callbacks as functions of what they are given and of a state of their own, and what passing
messages to them means: the calls that the handlers of a table get, message by message.
-/

namespace LibKprintf

variable {cfg : Config} {σ : Type}

/-- What a callback is given: its own argument, and the message. -/
structure CallArgs where
  arg : U32
  msg : List Byte
  len : U16
  size : U16
  isUser : Int
  deriving DecidableEq

/-- What a callback comes to: its result, and the length and the text that it leaves. -/
structure Reply where
  res : Int
  len : U16
  msg : List Byte
  deriving DecidableEq

/-- How the callbacks behave. They share no more than the type of their private state, and a text
keeps its capacity.
-/
structure Behaviour (σ : Type) where
  call : σ → Callback → CallArgs → σ × Reply
  capacity : ∀ own cb args, (call own cb args).2.msg.length = args.msg.length

/-- One call of a callback. -/
structure CallRecord where
  slot : Nat
  cb : Callback
  args : CallArgs
  deriving DecidableEq

/-- The message as a callback left it. -/
def MsgBody.leave (body : MsgBody) (reply : Reply) : MsgBody :=
  { body with len := reply.len, msg := reply.msg }

/-- What the callback of a slot is given for a message. -/
def MsgBody.args (body : MsgBody) (arg : U32) : CallArgs :=
  ⟨arg, body.msg, body.len, body.size, body.isUser⟩

/-- The used slots of a table, in ascending order, with their pairs. -/
def Globals.used (g : Globals cfg) : List (Nat × Callback × U32) :=
  (List.range cfg.kprintfMaxHandlers).filterMap (fun i => (g.pairAt i).map (i, ·))

/-- A message is passed to one handler after the other, each of which gets what the one before
left, up to the first that answers `KPRINTF_MSG_STOP`.
-/
def dispatch (behaviour : Behaviour σ)
    : List (Nat × Callback × U32) → σ → MsgBody → σ × List CallRecord
  | [], own, _ => (own, [])
  | (slot, cb, arg) :: rest, own, body =>
      let (own, reply) := behaviour.call own cb (body.args arg)
      let record := ⟨slot, cb, body.args arg⟩
      if reply.res = kprintfMsgStop then
        (own, [record])
      else
        let (own, records) := dispatch behaviour rest own (body.leave reply)
        (own, record :: records)

section Dispatch

variable {behaviour : Behaviour σ} {slot : Nat} {cb : Callback} {arg : U32} {own : σ}
variable {body : MsgBody}

/-- A handler that stops the message is the last one that gets it. -/
theorem dispatch_stop (rest : List (Nat × Callback × U32))
    (stop : (behaviour.call own cb (body.args arg)).2.res = kprintfMsgStop)
    : dispatch behaviour ((slot, cb, arg) :: rest) own body
      = ((behaviour.call own cb (body.args arg)).1, [⟨slot, cb, body.args arg⟩]) := by
  simp [dispatch, stop]

/-- Otherwise the next one gets what it leaves. -/
theorem dispatch_pass (rest : List (Nat × Callback × U32))
    (pass : (behaviour.call own cb (body.args arg)).2.res ≠ kprintfMsgStop)
    : dispatch behaviour ((slot, cb, arg) :: rest) own body
      = ((dispatch behaviour rest (behaviour.call own cb (body.args arg)).1
            (body.leave (behaviour.call own cb (body.args arg)).2)).1,
          ⟨slot, cb, body.args arg⟩ :: (dispatch behaviour rest
            (behaviour.call own cb (body.args arg)).1
            (body.leave (behaviour.call own cb (body.args arg)).2)).2) := by
  simp [dispatch, pass]

end Dispatch

/-- The messages are passed on one after the other. -/
def dispatchAll (behaviour : Behaviour σ) (slots : List (Nat × Callback × U32))
    : List MsgBody → σ → σ × List CallRecord
  | [], own => (own, [])
  | body :: rest, own =>
      let (own, records) := dispatch behaviour slots own body
      let (own, later) := dispatchAll behaviour slots rest own
      (own, records ++ later)

/-- A flush_messages that nobody else interferes with: where it is, the state of the callbacks,
and the calls they have got.
-/
structure Flushing (cfg : Config) (σ : Type) where
  sh : Shared cfg
  pc : Option FlushPc
  own : σ
  trace : List CallRecord

/-- What the callback of slot `i` is given for the message at `m`. -/
def Shared.argsAt (sh : Shared cfg) (m : Addr) (i : Nat) : CallArgs :=
  (sh.k.mem.block m).msg.toMsgBody.args ((sh.g.gHandlers[i]?).getD .empty).arg

namespace Flushing

/-- The next state, if the step has one. -/
def advance (f : Flushing cfg σ) : StepResult (Shared cfg × Option FlushPc) → Option (Flushing cfg σ)
  | .next (sh, pc) => some { f with sh := sh, pc := pc }
  | _ => none

/-- One step of flush_messages, with callbacks that behave so; none once it has returned. -/
def step (behaviour : Behaviour σ) (thid : Uid) (f : Flushing cfg σ) : Option (Flushing cfg σ) :=
  match f.pc with
  | none => none
  | some (.callback m i cb none) =>
      let args := f.sh.argsAt m i
      let (own, reply) := behaviour.call f.own cb args
      ({ f with own := own, trace := f.trace ++ [⟨i, cb, args⟩] } : Flushing cfg σ).advance
        (flushStep thid f.sh (.callback m i cb none) (.ret reply.res reply.len reply.msg))
  | some pc => f.advance (flushStep thid f.sh pc .go)

/-- Finitely many steps; each state has at most one next one. -/
def Leads (behaviour : Behaviour σ) (thid : Uid) : Flushing cfg σ → Flushing cfg σ → Prop :=
  Relation.ReflTransGen (fun f f' => f.step behaviour thid = some f')

end Flushing

end LibKprintf
