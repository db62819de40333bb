import LibKprintf.Model.Api

/-! The event thread of event.c, with flush_messages of msg.c and invoke_handlers of
handler.c, one memory access or kernel call at a time. A handler callback is any code: it
may change its message within its capacity, take any time, and call the exported functions.
-/

namespace LibKprintf

variable {cfg : Config}

/-- The next statement of a running flush_messages. -/
inductive FlushPc
  /-- `m = g_head` -/
  | start
  /-- `while (m != NULL)` -/
  | test (m : Addr)
  /-- invoke_handlers: the loop head and `if (g_handlers[i].cb != NULL)`. -/
  | slot (m : Addr) (i : Nat)
  /-- `g_handlers[i].cb(g_handlers[i].arg, m->msg, &(m->len), m->size, m->isUser)` -/
  | invoke (m : Addr) (i : Nat)
  /-- Inside the callback of slot `i`, and inside the exported function it called, if any. -/
  | callback (m : Addr) (i : Nat) (cb : Callback) (api : Option (ApiCall × ApiPc))
  /-- invoke_handlers returns. -/
  | delivered (m : Addr)
  /-- `n = m->next` -/
  | readNext (m : Addr)
  /-- `remove_delete_msg(m)`, one step because it runs with interrupts disabled. -/
  | remove (m n : Addr)
  /-- `m = n` -/
  | advance (n : Addr)
  deriving DecidableEq, Repr

/-- A callback outside the exported functions: it returns, or calls one of them. The
library's own default_file_handler calls none.
-/
def callbackStep (thid : Uid) (sh : Shared cfg) (m : Addr) (i : Nat) (cb : Callback)
    (choice : Choice cfg)
    : StepResult (Shared cfg × FlushPc) :=
  match choice with
  | .ret res len msg =>
      if m ∈ sh.k.mem.live ∧ msg.length ≠ (sh.k.mem.block m).msg.msg.length then
        .disabled
      else
        (StepResult.ofMemory
          (sh.k.mem.store m (fun node => { node with len := len, msg := msg }))).map
          (fun mem =>
            ({ sh with k := { sh.k with mem := mem } }.note
                (.returned (sh.k.mem.block m).stamp i res),
              if res = kprintfMsgStop then .delivered m else .slot m (i + 1)))
  | .call call =>
      if cb = .defaultFileHandler then
        .disabled
      else
        .next (sh.note (.called (.event thid) call),
          .callback m i cb (some (call, apiEntry sh call)))
  | _ => .disabled

/-- One step of flush_messages; it answers no program point when it returns. -/
def flushStep (thid : Uid) (sh : Shared cfg) (pc : FlushPc) (choice : Choice cfg)
    : StepResult (Shared cfg × Option FlushPc) :=
  match pc with
  | .start => choice.onGo <| .next (sh, some (.test sh.g.gHead))
  | .test m =>
      choice.onGo <| .next <|
        if m = 0 then
          (sh, none)
        else
          let block := sh.k.mem.block m
          (sh.note (.deliveryBegins block.stamp block.msg.toMsgBody), some (.slot m 0))
  | .slot m i =>
      choice.onGo <| .next <|
        if i < cfg.kprintfMaxHandlers then
          if sh.g.callbackAt i = none then (sh, some (.slot m (i + 1))) else (sh, some (.invoke m i))
        else
          (sh, some (.delivered m))
  | .invoke m i =>
      choice.onGo <|
        match sh.g.gHandlers[i]? with
        | some ⟨some cb, arg⟩ =>
            if m ∈ sh.k.mem.live then
              .next (sh.note (.invoked (sh.k.mem.block m).stamp i cb arg),
                some (.callback m i cb none))
            else
              .fault
        | _ => .fault
  | .callback m i cb none =>
      (callbackStep thid sh m i cb choice).map (fun (sh, pc) => (sh, some pc))
  | .callback m i cb (some (call, api)) =>
      (apiCallStep (.event thid) call sh api choice).map
        (fun (sh, api) => (sh, some (.callback m i cb (api.map (call, ·)))))
  | .delivered m =>
      choice.onGo <| .next
        (sh.note (.deliveryEnds (sh.k.mem.block m).stamp), some (.readNext m))
  | .readNext m =>
      choice.onGo <|
        (StepResult.ofMemory (sh.k.mem.loadNext m)).map (fun n => (sh, some (.remove m n)))
  | .remove m n =>
      choice.onGo <|
        (StepResult.ofMemory (removeDeleteMsg sh m)).map
          (fun (sh, _) => (sh, some (.advance n)))
  | .advance n => choice.onGo <| .next (sh, some (.test n))

/-- The next statement of an event thread, and the states of a thread that does not run. -/
inductive EventPc
  /-- No thread has this id. -/
  | absent
  /-- Created, not started. -/
  | dormant
  /-- `while (g_state != STATE_STARTED)` -/
  | poll
  /-- `sceKernelDelayThread(100)` -/
  | pollDelay
  /-- `register_default_handler()` is called. -/
  | callRegister
  /-- Inside register_default_handler. -/
  | register (api : ApiPc)
  /-- detect_psplink: the loop test, and sceKernelFindModuleByName. -/
  | detect (t : U32)
  /-- `sceKernelDelayThread(1000); t += 1000` -/
  | detectDelay (t : U32)
  /-- `sceKernelDelayThread(KPRINTF_PSPLINK_USB_DELAY)` -/
  | usbDelay
  /-- `ev = 0`, and reading `g_evid` for the wait. -/
  | loop
  /-- `sceKernelWaitEventFlagCB(g_evid, EV_FLUSH | EV_TERMINATE, EW_OR | EW_CLEAR_PAT, ..)` -/
  | waitFlag (evid : Uid)
  /-- `if ((ev & EV_FLUSH) != 0)` -/
  | testFlush (ev : U32)
  /-- `ret = sceKernelWaitSema(g_semid, 1, NULL)` -/
  | waitSema (ev : U32) (semid : Uid)
  /-- Inside flush_messages. -/
  | flush (ev : U32) (pc : FlushPc)
  /-- `sceKernelSignalSema(g_semid, 1)` -/
  | signal (ev : U32)
  /-- `sceKernelSetEventFlag(g_evid, EV_FLUSH)` -/
  | resend (ev : U32)
  /-- `sceKernelDelayThread(1000)` -/
  | resendDelay (ev : U32)
  /-- `if ((ev & EV_TERMINATE) != 0)` -/
  | testTerminate (ev : U32)
  /-- `sceKernelSetEventFlag(g_evid, EV_STOP_OK)` -/
  | stopOk
  /-- `return 0` -/
  | returning
  /-- The thread has returned. -/
  | exited
  deriving DecidableEq, Repr

/-- Where the event thread goes once it has seen `STATE_STARTED`. -/
def afterPoll (cfg : Config) : EventPc :=
  if cfg.kprintfDhAutoRegister then .callRegister else .detect 0

/-- `sceKernelSetEventFlag(g_evid, EV_STOP_OK)`, observed with the bits that are set after it. -/
def Shared.acknowledge (sh : Shared cfg) : Shared cfg :=
  (sh.setEventFlag evStopOk).note (.acknowledged (sh.setEventFlag evStopOk).flag)

section Acknowledge

variable (sh : Shared cfg)

@[simp] theorem Shared.acknowledge_g : sh.acknowledge.g = sh.g := rfl

@[simp] theorem Shared.acknowledge_k : sh.acknowledge.k = (sh.setEventFlag evStopOk).k := rfl

@[simp] theorem Shared.acknowledge_history
    : sh.acknowledge.history = sh.history ++ [.acknowledged (sh.setEventFlag evStopOk).flag] :=
  rfl

end Acknowledge

/-- One step of the event thread `thid`. -/
def eventStep (thid : Uid) (sh : Shared cfg) (pc : EventPc) (choice : Choice cfg)
    : StepResult (Shared cfg × EventPc) :=
  match pc with
  | .absent | .dormant | .exited => .disabled
  | .poll =>
      choice.onGo <| .next (sh, if sh.g.gState = .started then afterPoll cfg else .pollDelay)
  | .pollDelay => choice.onGo <| .next (sh, .poll)
  | .callRegister =>
      choice.onGo <| .next
        (sh.note (.called (.event thid) .registerDefaultHandler),
          .register (apiEntry sh .registerDefaultHandler))
  | .register api =>
      (apiCallStep (.event thid) .registerDefaultHandler sh api choice).map
        (fun
          | (sh, some api) => (sh, .register api)
          | (sh, none) => (sh, .detect 0))
  | .detect t =>
      if t.toNat < cfg.kprintfPsplinkDetectTimeout.toNat then
        match choice with
        | .found true => .next (sh, .usbDelay)
        | .found false => .next (sh, .detectDelay t)
        | _ => .disabled
      else
        choice.onGo <| .next (sh, .loop)
  | .detectDelay t => choice.onGo <| .next (sh, .detect (t + 1000))
  | .usbDelay => choice.onGo <| .next (sh, .loop)
  | .loop => choice.onGo <| .next (sh, .waitFlag sh.g.gEvid)
  | .waitFlag evid =>
      choice.onKernel
        ((StepResult.ofBlocking (sh.k.takeEventFlag evid (evFlush ||| evTerminate))).map
          (fun (k, ev) => ({ sh with k := k }, .testFlush ev)))
        (fun _ => (sh, .testFlush 0))
  | .testFlush ev =>
      choice.onGo <| .next
        (sh, if ev &&& evFlush ≠ 0 then .waitSema ev sh.g.gSemid else .testTerminate ev)
  | .waitSema ev semid =>
      choice.onKernel
        ((StepResult.ofBlocking (sh.k.takeSema semid (.event thid))).map
          (fun k => ({ sh with k := k }, .flush ev .start)))
        (fun _ => (sh, .resend ev))
  | .flush ev pc =>
      (flushStep thid sh pc choice).map
        (fun
          | (sh, some pc) => (sh, .flush ev pc)
          | (sh, none) => (sh, .signal ev))
  | .signal ev =>
      choice.onGo <| .next
        ({ sh with k := (sh.k.sceKernelSignalSema sh.g.gSemid).1 }, .testTerminate ev)
  | .resend ev => choice.onGo <| .next (sh.setEventFlag evFlush, .resendDelay ev)
  | .resendDelay ev => choice.onGo <| .next (sh, .testTerminate ev)
  | .testTerminate ev =>
      choice.onGo <| .next (sh, if ev &&& evTerminate ≠ 0 then .stopOk else .loop)
  | .stopOk => choice.onGo <| .next (sh.acknowledge, .returning)
  | .returning => choice.onGo <| .next (sh, .exited)

end LibKprintf
