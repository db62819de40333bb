import LibKprintf.Handlers.Bounds
import LibKprintf.Handlers.Dispatch
import LibKprintf.Handlers.Linearization

/-! The default handler among the others: the line that it makes of a message, the slot that it is
registered in, and the messages that it is given, which all have a text.
-/

namespace LibKprintf

open Foundation

variable {cfg : Config}

-----------------------------------------------------------------------------------------
-- What is written
-----------------------------------------------------------------------------------------

/-- The line that the default handler makes of a message. -/
def MsgBody.line (cfg : Config) (body : MsgBody) : List Byte :=
  let text := body.msg.take body.len.toNat
  if cfg.kprintfDhAutoNewline ∧ text.getLast? ≠ some newline then text ++ [newline] else text

/-- Whether the settings let it write a message. -/
def MsgBody.isWritten (cfg : Config) (body : MsgBody) : Bool :=
  cfg.kprintfDhWritePrintf && body.isUser ≠ 0 || cfg.kprintfDhWriteKprintf && body.isUser = 0

/-- The lines of some messages, and where they are written to. -/
def linesOf (cfg : Config) (fd : Uid) (messages : List (Nat × MsgBody)) : List (Uid × List Byte) :=
  messages.filterMap fun (_, body) =>
    if body.isWritten cfg then some (fd, body.line cfg) else none

/-- `(SceUID)arg` of the argument that the default handler is registered with. -/
def Globals.stdoutFd (g : Globals cfg) : Uid := (BitVec.ofInt 32 g.gStdout).toInt

/-- The argument that a slot's callback was called with for a message. -/
def passedArg (history : List Event) (stamp slot : Nat) : U32 :=
  match invocations history stamp slot with
  | .invoked _ _ _ arg :: _ => arg
  | _ => 0

/-- A callback that returns to flush_messages, and what it answers and leaves of its message. -/
structure CallbackReturn where
  m : Addr
  i : Nat
  cb : Callback
  res : Int
  len : U16
  msg : List Byte

/-- The callback that an action lets return. -/
def State.returning (s : State cfg) : Action cfg → Option CallbackReturn
  | .event thid (.ret res len msg) =>
      match s.threads thid with
      | .flush _ (.callback m i cb none) => some ⟨m, i, cb, res, len, msg⟩
      | _ => none
  | _ => none

/-- The run of default_file_handler in a callback, with the memory around the message. -/
def State.defaultRun (s : State cfg) (outside : Int → Byte) (m : Addr) (i : Nat) : DefaultRun :=
  let block := s.sh.k.mem.block m
  defaultFileHandler cfg (passedArg s.sh.history block.stamp i) (around outside block.msg.msg)
    block.msg.len block.msg.isUser

/-- What a step passes to sceIoWrite: the library's own handler does so before it returns. -/
def State.output (outside : Int → Byte) (s : State cfg) (action : Action cfg)
    : List (Uid × List Byte) :=
  match s.returning action with
  | some ⟨m, i, .defaultFileHandler, _, _, _⟩ => (s.defaultRun outside m i).output.toList
  | _ => []

/-- The library's own handler does what its code does, and a client's callback leaves its message
as it is and does not stop it.
-/
def State.PassesOn (s : State cfg) (outside : Int → Byte) (ret : CallbackReturn) : Prop :=
  let msg := (s.sh.k.mem.block ret.m).msg
  match ret.cb with
  | .defaultFileHandler =>
      let run := s.defaultRun outside ret.m ret.i
      ret.res = kprintfMsgOk ∧ ret.len = run.len
        ∧ ret.msg = (List.range msg.msg.length).map (fun j : Nat => run.msg j)
  | .client _ => ret.res ≠ kprintfMsgStop ∧ ret.len = msg.len ∧ ret.msg = msg.msg

instance (s : State cfg) (outside : Int → Byte) (ret : CallbackReturn)
    : Decidable (s.PassesOn outside ret) :=
  match ret with
  | ⟨_, _, .defaultFileHandler, _, _, _⟩ => inferInstanceAs (Decidable (_ ∧ _ ∧ _))
  | ⟨_, _, .client _, _, _, _⟩ => inferInstanceAs (Decidable (_ ∧ _ ∧ _))

/-- A single session whose handlers pass all messages on. -/
def PassingOn (outside : Int → Byte) (s : State cfg) (action : Action cfg) : Prop :=
  SingleSession s action ∧ ∀ ret ∈ s.returning action, s.PassesOn outside ret

instance (outside : Int → Byte) (s : State cfg) (action : Action cfg)
    : Decidable (PassingOn outside s action) :=
  inferInstanceAs (Decidable (_ ∧ _))

/-- Every delivery has begun while the default handler was registered. -/
def DefaultKept (history : List Event) : Prop :=
  Always (fun past event => ∀ stamp body, event = .deliveryBegins stamp body →
    ∃ slot arg, registered past slot = some (.defaultFileHandler, arg)) history

/-- Nobody has passed default_file_handler to register_handler: the function is static. -/
def DefaultStatic (history : List Event) : Prop :=
  ∀ thread arg, .called thread (.registerHandler (some .defaultFileHandler) arg) ∉ history

-----------------------------------------------------------------------------------------
-- One message
-----------------------------------------------------------------------------------------

/-- The first bytes of the memory around a text are those of the text. -/
theorem map_around (outside : Int → Byte) {msg : List Byte} {len : Nat} (fits : len ≤ msg.length)
    : ((List.range len).map Int.ofNat).map (around outside msg) = msg.take len := by
  rw [List.map_map]
  refine List.ext_getElem (by simpa using fits) fun i low high => ?_
  have inside : i < msg.length := by
    simp only [List.length_map, List.length_range] at low
    omega
  simp [around, inside]

/-- So are they after a byte and an end have been stored behind it, with that byte. -/
theorem map_extended (outside : Int → Byte) {msg : List Byte} {len : Nat} (fits : len ≤ msg.length)
    {byte last : Byte}
    : ((List.range ((len : Int) + 1).toNat).map Int.ofNat).map
        (Function.update (Function.update (around outside msg) len byte) ((len : Int) + 1) last)
      = msg.take len ++ [byte] := by
  have next : ((len : Int) + 1).toNat = len + 1 := by omega
  have earlier : ∀ i ∈ (List.range len).map Int.ofNat,
      Function.update (Function.update (around outside msg) len byte) ((len : Int) + 1) last i
        = around outside msg i := by
    intro i member
    obtain ⟨j, bound, rfl⟩ := List.mem_map.mp member
    have below : j < len := List.mem_range.mp bound
    have other : Int.ofNat j ≠ (len : Int) + 1 := by simp only [Int.ofNat_eq_natCast]; omega
    have other' : Int.ofNat j ≠ (len : Int) := by simp only [Int.ofNat_eq_natCast]; omega
    rw [Function.update_of_ne other, Function.update_of_ne other']
  have kept : Function.update (Function.update (around outside msg) len byte) ((len : Int) + 1) last
      (Int.ofNat len) = byte := by
    have apart : Int.ofNat len ≠ (len : Int) + 1 := by simp only [Int.ofNat_eq_natCast]; omega
    rw [Function.update_of_ne apart]
    exact Function.update_self ..
  rw [next, List.range_succ, List.map_append, List.map_append, List.map_congr_left earlier,
    map_around outside fits, List.map_singleton, List.map_singleton, kept]

/-- The last byte of a text, read from the memory. -/
theorem getLast?_take_around (outside : Int → Byte) {msg : List Byte} {len : Nat}
    (positive : 0 < len) (fits : len ≤ msg.length)
    : (msg.take len).getLast? = some (around outside msg ((len : Int) - 1)) := by
  have index : (len : Int) - 1 = ((len - 1 : Nat) : Int) := by omega
  have inside : len - 1 < msg.length := by omega
  rw [List.getLast?_eq_getElem?, List.length_take, Nat.min_eq_left fits,
    List.getElem?_take_of_lt (by omega), List.getElem?_eq_getElem inside, index,
    around_inside outside (List.getElem?_eq_getElem inside)]

/-- A message with a text writes its line, if the settings let it. -/
theorem defaultFileHandler_output (outside : Int → Byte) (arg : U32) {body : MsgBody}
    (positive : 0 < body.len.toNat) (fits : body.len.toNat ≤ body.msg.length)
    : (defaultFileHandler cfg arg (around outside body.msg) body.len body.isUser).output
      = if body.isWritten cfg then some (arg.toInt, body.line cfg) else none := by
  have last := getLast?_take_around outside positive fits
  have written : (cfg.kprintfDhWritePrintf && body.isUser ≠ 0
      || cfg.kprintfDhWriteKprintf && body.isUser = 0) = body.isWritten cfg := rfl
  simp only [defaultFileHandler, written, MsgBody.line, last, ne_eq, Option.some.injEq]
  by_cases writes : body.isWritten cfg = true
  swap
  · simp [writes]
  simp only [writes, if_true]
  by_cases newlines : cfg.kprintfDhAutoNewline = true
  · by_cases ended : around outside body.msg ((body.len.toNat : Int) - 1) = newline
    · simp [newlines, ended, map_around outside fits]
    · simp only [newlines, ended, not_false_eq_true, and_self, if_true, Option.some.injEq,
        Prod.mk.injEq, true_and]
      exact map_extended outside fits
  · simp [newlines, map_around outside fits]

-----------------------------------------------------------------------------------------
-- The messages in the steps of the other threads
-----------------------------------------------------------------------------------------

/-- What a step outside flush_messages does to the messages: nothing, or what Kprintf does. -/
def Shared.Prints (sh sh' : Shared cfg) : Prop :=
  sh.SameQueue sh' ∨ ∃ during, kprintf sh during = .next sh'

/-- A client does to them what Kprintf does. -/
theorem ClientEffect.prints {n : Nat} {sh sh' : Shared cfg} {pc pc' : ClientPc}
    (effect : ClientEffect n sh pc sh' pc')
    : sh.Prints sh' := by
  cases effect with
  | enter | leave => exact Or.inl (sameQueue_note sh rfl)
  | run stepped => exact (apiStep_effect stepped).queue

/-- So does _stop. -/
theorem StopEffect.prints {sh sh' : Shared cfg} {pc pc' : LoaderPc} {choice : Choice cfg}
    (effect : StopEffect sh pc choice sh' pc')
    : sh.Prints sh' := by
  cases effect with
  | enter | setStopped | giveUp => exact Or.inl ⟨rfl, rfl, rfl, [], by simp, by simp⟩
  | announce printed =>
      rcases printed with rfl | printed
      · exact Or.inl (.refl _)
      · exact Or.inr printed
  | unhook => exact Or.inl ⟨rfl, rfl, rfl, [_], rfl, List.forall_mem_singleton.mpr rfl⟩
  | post => exact Or.inl ⟨by simp, by simp, by simp, [], by simp, by simp⟩
  | acknowledged took =>
      obtain ⟨evflags, rfl⟩ := takeEventFlag_shape took
      exact Or.inl ⟨rfl, rfl, rfl, [], by simp, by simp⟩

/-- So does the event thread outside flush_messages. -/
theorem EventEffect.prints {thid : Uid} {sh sh' : Shared cfg} {pc pc' : EventPc}
    (effect : EventEffect thid sh pc sh' pc') (outside : ∀ ev place, pc ≠ .flush ev place)
    : sh.Prints sh' := by
  cases effect with
  | flush => exact absurd rfl (outside _ _)
  | register stepped => exact apiCallStep_queue stepped
  | callRegister => exact Or.inl (sameQueue_note sh rfl)
  | move => exact Or.inl (.refl sh)
  | wake took =>
      obtain ⟨evflags, rfl⟩ := takeEventFlag_shape took
      exact Or.inl ⟨rfl, rfl, rfl, [], by simp, by simp⟩
  | acquire took =>
      obtain ⟨semas, rfl⟩ := takeSema_shape took
      exact Or.inl ⟨rfl, rfl, rfl, [], by simp, by simp⟩
  | release =>
      obtain ⟨semas, same⟩ := signalSema_shape sh.k sh.g.gSemid
      exact Or.inl ⟨rfl, rfl, by rw [same], [], by simp, by simp⟩
  | resend => exact Or.inl ⟨by simp, by simp, by simp, [], by simp, by simp⟩
  | stopOk => exact Or.inl (sameQueue_acknowledge sh)

/-- Kprintf changes no queued message, and delivers none. -/
theorem Shared.Prints.kept {sh sh' : Shared cfg} {pc : EventPc} {nodes : List Addr}
    (prints : sh.Prints sh') (delivery : Delivery sh pc nodes)
    : delivered sh'.history = delivered sh.history
      ∧ ∀ a ∈ nodes, sh'.k.mem.entry a = sh.k.mem.entry a := by
  rcases prints with ⟨_, _, mem, events, history, silent⟩ | ⟨during, printed⟩
  · rw [history, mem]
    exact ⟨(messages_append sh.history silent).2.1, fun _ _ => rfl⟩
  · unfold kprintf at printed
    split at printed
    · rename_i enabled
      obtain ⟨sh'', ret, handled, effect⟩ := kprintfHandler_appends delivery.queue enabled.2
      simp only [handled, StepResult.ofMemory, StepResult.map, StepResult.next.injEq] at printed
      subst printed
      rcases effect with rfl | ⟨m, appends⟩
      · exact ⟨rfl, fun _ _ => rfl⟩
      · refine ⟨?_, appends.kept⟩
        rw [appends.history]
        simp [delivered]
    · contradiction

/-- A text of at least one byte, within its memory. -/
def MsgBody.HasText (body : MsgBody) : Prop :=
  0 < body.len.toNat ∧ body.len.toNat ≤ body.msg.length

/-- All accepted messages have a text. -/
def AllText (history : List Event) : Prop :=
  ∀ entry ∈ accepted history, entry.2.HasText

/-- Kprintf accepts messages with a text only. -/
theorem kprintf_texts {sh sh' : Shared cfg} {call} (texts : AllText sh.history)
    (printed : kprintf sh call = .next sh')
    : AllText sh'.history := by
  unfold kprintf at printed
  split at printed
  swap
  · contradiction
  simp only [StepResult.map_eq_next, StepResult.ofMemory_eq_next] at printed
  obtain ⟨⟨_, ret⟩, handled, rfl⟩ := printed
  unfold kprintfHandler at handled
  split at handled
  · cases handled
    exact texts
  split at handled
  · cases handled
    exact texts
  rename_i refused
  obtain ⟨positive, fits⟩ := not_or.mp refused
  simp only [Option.bind_eq_bind, Option.bind_eq_some_iff] at handled
  obtain ⟨⟨made, result⟩, new, handled⟩ := handled
  cases answer : call.answer with
  | error code =>
      simp only [newMsg, answer, Option.some.injEq, Prod.mk.injEq] at new
      obtain ⟨rfl, rfl⟩ := new
      cases handled
      exact texts
  | ok m =>
      simp only [newMsg, answer, Option.bind_eq_bind, Option.bind_eq_some_iff] at new
      obtain ⟨contents, filled, new⟩ := new
      cases new
      obtain ⟨linked, added, handled⟩ := Option.bind_eq_some_iff.mp handled
      obtain ⟨head, mem, rfl⟩ := addMsg_withQueue added
      cases handled
      have small : call.len.toNat < cfg.kprintfBufsz := not_le.mp fits
      have bound := cfg.bufsz_fits
      have some : 0 < call.len.toNat := by
        by_contra zero
        have none : call.len = 0 := BitVec.eq_of_toNat_eq (by simpa using zero)
        simp [none] at positive
      rw [fillMsg_eq small] at filled
      cases filled
      intro entry member
      have entries : entry ∈ accepted sh.history ∨ entry.2.HasText := by
        simp only [Shared.note_history, accepted, List.filterMap_append, List.mem_append] at member
        refine member.imp id fun last => ?_
        simp only [List.filterMap_cons, List.filterMap_nil, List.mem_singleton] at last
        subst last
        have width : (call.len.setWidth 16).toNat = call.len.toNat := by
          rw [BitVec.toNat_setWidth, Nat.mod_eq_of_lt (by omega)]
        simp [MsgBody.HasText, Mem.allocate, width, some, strncpy_length]
      exact entries.elim (texts entry) id

/-- So does every step outside flush_messages. -/
theorem Shared.Prints.texts {sh sh' : Shared cfg} (prints : sh.Prints sh')
    (texts : AllText sh.history)
    : AllText sh'.history := by
  rcases prints with ⟨_, _, _, events, history, silent⟩ | ⟨during, printed⟩
  · rw [history]
    intro entry member
    rw [(messages_append sh.history silent).1] at member
    exact texts entry member
  · exact kprintf_texts texts printed

/-- In every reachable state the accepted messages have a text. -/
theorem all_text {s : State cfg} (reach : (machine cfg).Reachable SingleSession s)
    (inside : s.loader.inSession = true)
    : AllText s.sh.history := by
  refine session_invariant (P := fun s : State cfg => AllText s.sh.history)
    (fun _ _ single => single) ?_ ?_ reach inside
  · intro s _ fresh entry member
    rw [(messages_beforeSession fresh.history).1] at member
    contradiction
  · intro s action t reach inside texts single stepped
    have same {events : List Event} (silent : ∀ event ∈ events, ∀ stamp body,
        event ≠ .accepted stamp body) : AllText (s.sh.history ++ events) := by
      have nothing : accepted events = [] := by
        refine List.filterMap_eq_nil_iff.mpr fun event member => ?_
        have other := silent event member
        cases event <;> first | rfl | exact absurd rfl (other _ _)
      intro entry member
      refine texts entry ?_
      simpa [accepted, List.filterMap_append, show events.filterMap _ = [] from nothing] using member
    cases State.step_cases stepped with
    | crash | overRegister => exact texts
    | kprintf printed => exact kprintf_texts texts printed
    | client ran => exact (clientStep_effect ran).prints.texts texts
    | loader ran =>
        exact (loaderStep_effect ran inside (not_start single inside)).1.prints.texts texts
    | @event thid choice sh' pc' ran =>
        have effect := eventStep_effect ran
        by_cases elsewhere : ∀ ev place, s.threads thid ≠ .flush ev place
        · exact (effect.prints elsewhere).texts texts
        · push Not at elsewhere
          obtain ⟨ev, place, at'⟩ := elsewhere
          rw [at'] at effect
          cases effect with
          | move move => exact absurd move.free.1 (by simp [EventPc.free])
          | flush flushed =>
              cases flushStep_effect flushed with
              | nested called => exact Shared.Prints.texts (apiCallStep_queue called) texts
              | read => exact texts
              | callbackReturns | callbackCalls =>
                  exact same (List.forall_mem_singleton.mpr (by simp))
              | @observe _ _ event ofDelivery =>
                  refine same (List.forall_mem_singleton.mpr ?_)
                  rintro stamp body rfl
                  contradiction
              | remove freed =>
                  refine same fun event member => ?_
                  obtain ⟨stamp, rfl⟩ := freed event member
                  simp

-----------------------------------------------------------------------------------------
-- The slot of the default handler
-----------------------------------------------------------------------------------------

/-- The default handler is registered as such only, with `g_stdout`. -/
def DefaultMarked (stdout : Uid) (m : HandlerMap cfg) : Prop :=
  ∀ i arg mark, m.slot i = some ((.defaultFileHandler, arg), mark) →
    mark = true ∧ arg = BitVec.ofInt 32 stdout

/-- A registration keeps that, if it is one of a client's callback or of the default handler. -/
theorem DefaultMarked.register {stdout : Uid} {m : HandlerMap cfg} {pair : Callback × U32}
    {mark : Bool} {single : mark = true → m.marked = none} (marked : DefaultMarked stdout m)
    (fits : pair.1 = .defaultFileHandler → mark = true ∧ pair.2 = BitVec.ofInt 32 stdout)
    : DefaultMarked stdout (m.register pair mark single).1 := by
  cases free : m.lowestFree with
  | none =>
      rw [HandlerMap.register_full free]
      exact marked
  | some i =>
      rw [HandlerMap.register_place free]
      intro j arg mark' held
      rw [SlotMap.put_slot] at held
      split at held
      · obtain ⟨rfl, rfl⟩ := Prod.mk.inj (Option.some.inj held)
        exact fits rfl
      · exact marked j arg mark' held

/-- Every call keeps that, unless it registers the default handler as a client's callback. -/
theorem DefaultMarked.call {stdout : Uid} {m : HandlerMap cfg} {call : ApiCall}
    (marked : DefaultMarked stdout m)
    (other : ∀ arg, call ≠ .registerHandler (some .defaultFileHandler) arg)
    : DefaultMarked stdout (call.atomically stdout m).1 := by
  cases call with
  | registerHandler cb arg =>
      cases cb with
      | none => exact marked
      | some cb =>
          exact marked.register fun same => absurd (congrArg (fun cb =>
            ApiCall.registerHandler (some cb) arg) same) (other arg)
  | registerDefaultHandler =>
      simp only [ApiCall.atomically, HandlerMap.call, lt_irrefl, if_false]
      split
      · exact marked
      · exact marked.register fun _ => ⟨rfl, rfl⟩
  | unregisterHandler index =>
      simp only [ApiCall.atomically, HandlerMap.call, lt_irrefl, if_false]
      split
      · exact marked
      · split
        · exact marked
        · intro j arg mark held
          rw [SlotMap.erase_slot] at held
          split at held
          · contradiction
          · exact marked j arg mark held
  | install | isStarted => exact marked

/-- A call that has taken effect has been made. -/
theorem Atomic.called {s : State cfg} {refused order : List CallRun} {m : HandlerMap cfg}
    (atomic : Atomic s refused order m) {caller : ThreadRef} {call : ApiCall}
    {outcome : CallOutcome} (member : (caller, call, outcome) ∈ order)
    : .called caller call ∈ s.sh.history := by
  have answered : (caller, call, outcome.answer)
      ∈ (registryObject cfg s.sh.g.gStdout).answers order :=
    List.mem_map.mpr ⟨_, member, rfl⟩
  have own : call ∈ (callsOf caller ((registryObject cfg s.sh.g.gStdout).answers order)).map
      Prod.fst :=
    List.mem_map.mpr ⟨(call, outcome.answer), List.mem_filterMap.mpr ⟨_, answered, by simp⟩, rfl⟩
  have started := (atomic.run.now caller).2.subset own
  obtain ⟨event, noted, begins⟩ := List.mem_filterMap.mp started
  cases event with
  | respond => contradiction
  | invoke other call' =>
      simp only [Option.ite_none_right_eq_some, Option.some.injEq] at begins
      obtain ⟨rfl, rfl⟩ := begins
      obtain ⟨event, held, tells⟩ := List.mem_filterMap.mp noted
      cases event with
      | called thread call =>
          simp only [Option.ite_none_right_eq_some, Option.some.injEq,
            CallEvent.invoke.injEq] at tells
          obtain ⟨_, rfl, rfl⟩ := tells
          exact held
      | answered => simp at tells
      | _ => contradiction

/-- While nobody writes the table the default handler has at most one slot, and `g_stdout` as its
argument.
-/
theorem default_once {s : State cfg} (reach : (machine cfg).Reachable SingleSession s)
    (inside : s.loader.inSession = true) (static : DefaultStatic s.sh.history)
    (outside : ∀ thread, (s.inApi thread).locked = false) {i : Nat} {arg : U32}
    (held : s.sh.g.pairAt i = some (.defaultFileHandler, arg))
    : arg = BitVec.ofInt 32 s.sh.g.gStdout
      ∧ ∀ j arg', s.sh.g.pairAt j = some (.defaultFileHandler, arg') → j = i := by
  obtain ⟨refused, observed⟩ := reach.observed State.refusals
  obtain ⟨order, m, atomic⟩ := (atomicity observed).2 inside
  have marked : DefaultMarked s.sh.g.gStdout m := by
    refine atomic.run.serves.invariant (P := DefaultMarked s.sh.g.gStdout) ?_ ?_
    · intro i arg mark held
      simp [registryObject, SlotMap.empty] at held
    · intro caller call outcome m m' member marked may
      cases outcome with
      | acts ret =>
          have effect : call.atomically s.sh.g.gStdout m = (m', ret) := may
          have kept := marked.call fun arg same => static caller arg (same ▸ atomic.called member)
          rwa [effect] at kept
      | notStarted | waitFails =>
          obtain rfl : m' = m := may
          exact marked
  have slots := (atomic.table outside).slots
  have entry (j : Nat) (arg : U32) (held : s.sh.g.pairAt j = some (.defaultFileHandler, arg)) :
      m.slot j = some ((.defaultFileHandler, arg), true)
        ∧ arg = BitVec.ofInt 32 s.sh.g.gStdout := by
    have there : (m.slot j).map Prod.fst = some (.defaultFileHandler, arg) := (slots j).symm.trans held
    obtain ⟨⟨pair, mark⟩, place, same⟩ := Option.map_eq_some_iff.mp there
    cases same
    obtain ⟨rfl, value⟩ := marked j arg mark place
    exact ⟨place, value⟩
  obtain ⟨place, value⟩ := entry i arg held
  exact ⟨value, fun j arg' held' => m.unique j i _ _ (entry j arg' held').1 place⟩

/-- In a flush nobody writes the table. -/
theorem Exclusion.flush_outside {s : State cfg} (exclusion : Exclusion s) {thid : Uid} {ev : U32}
    {pc : FlushPc} (place : s.threads thid = .flush ev pc)
    : ∀ thread, (s.inApi thread).locked = false := by
  intro thread
  by_contra locked
  have held : (s.inApi thread).locked = true := by simpa using locked
  obtain ⟨holder, _, guarded⟩ := exclusion.owned
  have flushing : s.locked (.event thid) = true := by simp [State.locked, place, EventPc.locked]
  obtain rfl := guarded.exclusive (exclusion.locked_of_inApi held) flushing
  cases nested : pc.nested with
  | none => simp [State.inApi, place, EventPc.inApi, EventPc.nested, nested, ClientPc.locked] at held
  | some running =>
      obtain ⟨call, api⟩ := running
      have unlocked := exclusion.nested thid call api (by simp [place, EventPc.nested, nested])
      simp [State.inApi, place, EventPc.inApi, EventPc.nested, nested, ClientPc.locked,
        unlocked] at held

end LibKprintf
