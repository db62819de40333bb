import LibKprintf.Model.EventThread

/-! Starting and stopping the module: init, _start and _stop of startup.c. The module
manager calls them from one thread, one at a time.
-/

namespace LibKprintf

variable {cfg : Config}

/-- The local variables of init that its cleanup reads. -/
structure InitLocals where
  vplid : Uid := -1
  evid : Uid := -1
  semid : Uid := -1
  thid : Uid := -1
  ret : Int := 0
  deriving DecidableEq, Repr

/-- The next statement of a running init. -/
inductive InitPc
  /-- _start: `g_stdout = sceKernelStdout()` -/
  | stdout
  /-- `g_state = STATE_STARTING` -/
  | starting
  | createVpl
  | createEventFlag
  | createSema
  | createThread
  /-- `g_vplid = vplid` and the six stores after it. -/
  | setVplid
  | setEvid
  | setSemid
  | setThid
  | setDefault
  | setCount
  | setHead
  | startThread
  /-- Inside install_kernel_handler. -/
  | install (api : ApiPc)
  /-- `g_state = STATE_STARTED` -/
  | started
  /-- The four tests and calls of the cleanup after a failure. -/
  | terminateThread
  | deleteSema
  | deleteEventFlag
  | deleteVpl
  /-- `g_state = STATE_STOPPED` -/
  | stopped
  deriving DecidableEq, Repr

/-- The next statement of a running _stop, past its test of `g_state`. -/
inductive StopPc
  /-- The KPRINTF. -/
  | announce
  /-- `sceKernelRegisterKprintfHandler(NULL, NULL)` -/
  | unhook
  /-- `g_state = STATE_STOPPED` -/
  | setStopped
  /-- `sceKernelSetEventFlag(g_evid, EV_FLUSH | EV_TERMINATE)` -/
  | post
  /-- `sceKernelWaitEventFlag(g_evid, EV_STOP_OK, EW_OR | EW_CLEAR_PAT, NULL, &timeout)` -/
  | waitStopOk (evid : Uid)
  deriving DecidableEq, Repr

/-- Where the module manager's thread is. -/
inductive LoaderPc
  /-- The image is loaded; _start has not been called. -/
  | loaded
  | init (pc : InitPc) (locals : InitLocals)
  /-- _start has answered that the module stays resident. -/
  | resident
  /-- _start has answered that the module does not stay. -/
  | failed
  | stop (pc : StopPc)
  /-- _stop has returned 0. -/
  | stopped
  deriving DecidableEq, Repr

/-- The threads of the event thread's code, by id. -/
abbrev Threads := Uid → EventPc

/-- What the module manager's steps read and write. -/
abbrev LoaderState (cfg : Config) := Shared cfg × Threads × LoaderPc

/-- A creating call of init: a positive id that names no object of the kind yet, or a
negative code, with which init goes to its cleanup.
-/
def createStep (choice : Choice cfg) (fresh : Uid → Bool) (success : Uid → LoaderState cfg)
    (failure : Int → LoaderState cfg)
    : StepResult (LoaderState cfg) :=
  match choice with
  | .answer id => if 0 < id ∧ fresh id then .next (success id) else .disabled
  | .fail code => if code < 0 then .next (failure code) else .disabled
  | _ => .disabled

/-- One step of init. -/
def initStep (sh : Shared cfg) (threads : Threads) (pc : InitPc) (l : InitLocals)
    (choice : Choice cfg)
    : StepResult (LoaderState cfg) :=
  match pc with
  | .stdout =>
      match choice with
      | .answer id => .next ({ sh with g := { sh.g with gStdout := id } }, threads, .init .starting l)
      | _ => .disabled
  | .starting =>
      choice.onGo <| .next
        ({ sh with g := { sh.g with gState := .starting } }.note .initBegins, threads,
          .init .createVpl l)
  | .createVpl =>
      createStep choice (fun id => !sh.k.vpls id)
        (fun id =>
          ({ sh with k := { sh.k with vpls := Function.update sh.k.vpls id true } }.note
              (.created .vpl id),
            threads, .init .createEventFlag { l with vplid := id, ret := id }))
        (fun code => (sh, threads, .init .terminateThread { l with vplid := code, ret := code }))
  | .createEventFlag =>
      createStep choice (fun id => (sh.k.evflags id).isNone)
        (fun id =>
          ({ sh with k := { sh.k with evflags := Function.update sh.k.evflags id (some 0) } }.note
              (.created .eventFlag id),
            threads, .init .createSema { l with evid := id, ret := id }))
        (fun code => (sh, threads, .init .terminateThread { l with evid := code, ret := code }))
  | .createSema =>
      createStep choice (fun id => (sh.k.semas id).isNone)
        (fun id =>
          ({
            sh with
            k := { sh.k with semas := Function.update sh.k.semas id (some ⟨1, 1, none⟩) }
          }.note (.created .sema id),
            threads, .init .createThread { l with semid := id, ret := id }))
        (fun code => (sh, threads, .init .terminateThread { l with semid := code, ret := code }))
  | .createThread =>
      createStep choice (fun id => threads id = .absent)
        (fun id =>
          (sh.note (.created .thread id), Function.update threads id .dormant,
            .init .setVplid { l with thid := id, ret := id }))
        (fun code => (sh, threads, .init .terminateThread { l with thid := code, ret := code }))
  | .setVplid =>
      choice.onGo <| .next
        ({ sh with g := { sh.g with gVplid := l.vplid } }, threads, .init .setEvid l)
  | .setEvid =>
      choice.onGo <| .next
        ({ sh with g := { sh.g with gEvid := l.evid } }, threads, .init .setSemid l)
  | .setSemid =>
      choice.onGo <| .next
        ({ sh with g := { sh.g with gSemid := l.semid } }, threads, .init .setThid l)
  | .setThid =>
      choice.onGo <| .next
        ({ sh with g := { sh.g with gThid := l.thid } }, threads, .init .setDefault l)
  | .setDefault =>
      choice.onGo <| .next
        ({ sh with g := { sh.g with gDefaultHandlerIndex := -1 } }, threads, .init .setCount l)
  | .setCount =>
      choice.onGo <| .next
        ({ sh with g := { sh.g with gHandlerCount := 0 } }, threads, .init .setHead l)
  | .setHead =>
      choice.onGo <| .next
        ({ sh with g := { sh.g with gHead := 0 } }, threads, .init .startThread l)
  | .startThread =>
      choice.onKernel
        (if threads l.thid = .dormant then
          .next (sh, Function.update threads l.thid .poll,
            .init (.install (apiEntry sh .install)) { l with ret := 0 })
        else
          .disabled)
        (fun code => (sh, threads, .init .terminateThread { l with ret := code }))
  | .install (.done ret) =>
      choice.onGo <| .next
        (sh, threads,
          if ret < 0 then .init .terminateThread { l with ret := ret } else .init .started l)
  | .install api =>
      -- install_kernel_handler notes no event, so the thread it runs on does not matter.
      (apiStep (.event l.thid) sh api choice).map
        (fun (sh, api) => (sh, threads, .init (.install api) l))
  | .started =>
      choice.onGo <| .next
        ({ sh with g := { sh.g with gState := .started } }.note (.initReturns 0), threads,
          .resident)
  | .terminateThread =>
      choice.onGo <| .next <|
        if l.thid > 0 then
          (sh.note (.deleted .thread l.thid), Function.update threads l.thid .absent,
            .init .deleteSema l)
        else
          (sh, threads, .init .deleteSema l)
  | .deleteSema =>
      choice.onGo <| .next <|
        if l.semid > 0 then
          ({ sh with k := { sh.k with semas := Function.update sh.k.semas l.semid none } }.note
              (.deleted .sema l.semid),
            threads, .init .deleteEventFlag l)
        else
          (sh, threads, .init .deleteEventFlag l)
  | .deleteEventFlag =>
      choice.onGo <| .next <|
        if l.evid > 0 then
          ({ sh with k := { sh.k with evflags := Function.update sh.k.evflags l.evid none } }.note
              (.deleted .eventFlag l.evid),
            threads, .init .deleteVpl l)
        else
          (sh, threads, .init .deleteVpl l)
  | .deleteVpl =>
      choice.onGo <| .next <|
        if l.vplid > 0 then
          ({
            sh with
            k :=
              { sh.k with
                vpls := Function.update sh.k.vpls l.vplid false
                mem :=
                  { sh.k.mem with
                    live := sh.k.mem.live.filter (fun a => (sh.k.mem.block a).vpl ≠ l.vplid) } }
          }.note (.deleted .vpl l.vplid),
            threads, .init .stopped l)
        else
          (sh, threads, .init .stopped l)
  | .stopped =>
      choice.onGo <| .next
        ({ sh with g := { sh.g with gState := .stopped } }.note (.initReturns l.ret), threads,
          .failed)

/-- One step of _stop past its test of `g_state`. The timed wait may give up at any time. -/
def stopStep (sh : Shared cfg) (pc : StopPc) (choice : Choice cfg)
    : StepResult (Shared cfg × LoaderPc) :=
  match pc with
  | .announce => (choice.onKprintf sh).map (fun sh => (sh, .stop .unhook))
  | .unhook =>
      choice.onGo <| .next
        ({ sh with k := { sh.k with hook := .none } }.note .stopUnhooks, .stop .setStopped)
  | .setStopped =>
      choice.onGo <| .next ({ sh with g := { sh.g with gState := .stopped } }, .stop .post)
  | .post =>
      choice.onGo <| .next
        (sh.setEventFlag (evFlush ||| evTerminate), .stop (.waitStopOk sh.g.gEvid))
  | .waitStopOk evid =>
      choice.onKernel
        ((StepResult.ofBlocking (sh.k.takeEventFlag evid evStopOk)).map
          (fun (k, _) => ({ sh with k := k }, .stopped)))
        (fun _ => (sh, .stopped))

/-- _stop is called: its test of `g_state`. -/
def stopEntry (sh : Shared cfg) : LoaderPc :=
  if sh.g.gState = .started then .stop .announce else .stopped

/-- One step of the module manager's thread. It calls _start on a loaded image, again after
a failed start or a stop, and _stop on a resident or stopped module.
-/
def loaderStep (sh : Shared cfg) (threads : Threads) (pc : LoaderPc) (choice : Choice cfg)
    : StepResult (LoaderState cfg) :=
  match pc with
  | .init pc l => initStep sh threads pc l choice
  | .stop pc => (stopStep sh pc choice).map (fun (sh, pc) => (sh, threads, pc))
  | .loaded | .failed =>
      match choice with
      | .start => .next (sh, threads, .init .stdout {})
      | _ => .disabled
  | .resident =>
      match choice with
      | .stop => .next (sh, threads, stopEntry sh)
      | _ => .disabled
  | .stopped =>
      match choice with
      | .start => .next (sh, threads, .init .stdout {})
      | .stop => .next (sh, threads, stopEntry sh)
      | _ => .disabled

end LibKprintf
