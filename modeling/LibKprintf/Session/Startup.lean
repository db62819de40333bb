import LibKprintf.Session.Frame

/-! From the loaded image to a started module. Until init has stored `STATE_STARTED` no
thread but the module manager's changes anything but the history and the hook, and what
init leaves behind is the base case of the invariants of the session.
-/

namespace LibKprintf

open Foundation

variable {cfg : Config}

/-- Whether init has succeeded. In a single session this never ends. -/
def LoaderPc.inSession : LoaderPc → Bool
  | .resident | .stop _ | .stopped => true
  | _ => false

/-- Whether an event thread has not seen `STATE_STARTED` yet. -/
def EventPc.early : EventPc → Bool
  | .absent | .dormant | .poll | .pollDelay => true
  | _ => false

/-- Whether a call is one of the functions that write the handler table. -/
def ApiCall.ofRegistry : ApiCall → Bool
  | .registerHandler .. | .registerDefaultHandler | .unregisterHandler _ => true
  | .install | .isStarted => false

/-- The events of a history before the session: no message and no handler occurs in it, and
every call for the table has answered that the module is not started.
-/
def Event.BeforeSession : Event → Prop
  | .answered _ call ret => call.ofRegistry = true → ret = kprintfErrNotStarted
  | .created .. | .deleted .. | .initBegins | .initReturns _ | .called .. => True
  | _ => False

/-- Where a client can be before the session. -/
def ClientPc.BeforeSession (pc : ClientPc) : Prop :=
  ∀ call api, pc = some (call, api) →
    if call.ofRegistry then api = .done kprintfErrNotStarted else api.free = true

/-- A call entered before the session is where a client can be before the session. -/
theorem apiEntry_beforeSession {sh : Shared cfg} (state : sh.g.gState ≠ .started) (call : ApiCall)
    : ClientPc.BeforeSession (some (call, apiEntry sh call)) := by
  rintro _ _ ⟨rfl, rfl⟩
  cases call <;> simp [ApiCall.ofRegistry, apiEntry, registerEntry, state, ApiPc.free]

/-- The change of the shared state by a step of another thread before the session. -/
structure Shared.Quiet (sh sh' : Shared cfg) : Prop where
  g : sh'.g = sh.g
  mem : sh'.k.mem = sh.k.mem
  vpls : sh'.k.vpls = sh.k.vpls
  evflags : sh'.k.evflags = sh.k.evflags
  semas : sh'.k.semas = sh.k.semas
  history : ∃ events, sh'.history = sh.history ++ events ∧ ∀ event ∈ events, event.BeforeSession

/-- Nothing changed at all. -/
theorem Shared.Quiet.refl (sh : Shared cfg) : sh.Quiet sh :=
  ⟨rfl, rfl, rfl, rfl, rfl, [], by simp, by simp⟩

/-- The Kprintf handler refuses every call while the module is not started. -/
theorem kprintf_unstarted {sh sh' : Shared cfg} {call} (state : sh.g.gState ≠ .started)
    (printed : kprintf sh call = .next sh')
    : sh' = sh := by
  obtain rfl | ⟨started, _⟩ := kprintf_effect printed
  · rfl
  · exact absurd started state

/-- A Kprintf call while the module is not started touches no memory. -/
theorem kprintf_unstarted_ne_fault {sh : Shared cfg} {call} (state : sh.g.gState ≠ .started)
    : kprintf sh call ≠ .fault := by
  unfold kprintf
  split
  · simp [kprintfHandler, state]
  · simp

/-- An API function outside the table code is quiet before the session. -/
theorem ApiEffect.quiet {thread : ThreadRef} {sh sh' : Shared cfg} {pc pc' : ApiPc}
    (effect : ApiEffect thread sh pc sh' pc') (free : pc.free = true)
    (state : sh.g.gState ≠ .started)
    : sh.Quiet sh' ∧ pc'.free = true := by
  obtain ⟨noWait, unlocked⟩ := ApiPc.free_iff.mp free
  cases effect with
  | acquire waits => simp [waits] at noWait
  | refuse waits => simp [waits] at noWait
  | work locked => simp [locked] at unlocked
  | release => simp [ApiPc.free] at free
  | announce printed =>
      rcases printed with rfl | ⟨during, printed⟩
      · exact ⟨.refl _, rfl⟩
      · rw [kprintf_unstarted state printed]
        exact ⟨.refl sh, rfl⟩
  | dipsw free' => exact ⟨.refl sh, free'⟩
  | hook => exact ⟨⟨rfl, rfl, rfl, rfl, rfl, [], by simp, by simp⟩, rfl⟩

/-- A client is quiet before the session and stays where it can be. -/
theorem ClientEffect.quiet {n : Nat} {sh sh' : Shared cfg} {pc pc' : ClientPc}
    (effect : ClientEffect n sh pc sh' pc') (before : pc.BeforeSession)
    (state : sh.g.gState ≠ .started)
    : sh.Quiet sh' ∧ pc'.BeforeSession := by
  cases effect with
  | enter =>
      exact ⟨⟨rfl, rfl, rfl, rfl, rfl, [_], rfl, List.forall_mem_singleton.mpr trivial⟩,
        apiEntry_beforeSession state _⟩
  | @leave call ret =>
      have answer : (Event.answered (.client n) call ret).BeforeSession := by
        intro ofRegistry
        simpa [ofRegistry] using before call _ rfl
      exact ⟨⟨rfl, rfl, rfl, rfl, rfl, [_], rfl, List.forall_mem_singleton.mpr answer⟩,
        by simp [ClientPc.BeforeSession]⟩
  | @run call api sh' api' choice stepped =>
      have place := before call api rfl
      split at place
      · subst place
        contradiction
      · rename_i notRegistry
        obtain ⟨quiet, free⟩ := (apiStep_effect stepped).quiet place state
        refine ⟨quiet, ?_⟩
        rintro _ _ ⟨rfl, rfl⟩
        simpa [notRegistry] using free

/-- An event thread that polls before the session only polls. -/
theorem eventStep_early {thid : Uid} {sh sh' : Shared cfg} {pc pc' : EventPc}
    {choice : Choice cfg} (stepped : eventStep thid sh pc choice = .next (sh', pc'))
    (early : pc.early = true) (state : sh.g.gState ≠ .started)
    : sh' = sh ∧ (pc = .poll ∨ pc = .pollDelay) ∧ (pc' = .poll ∨ pc' = .pollDelay) := by
  cases pc with
  | poll | pollDelay =>
      simp only [eventStep, Choice.onGo_eq_next, StepResult.next.injEq, Prod.mk.injEq, state,
        if_false] at stepped
      obtain ⟨_, rfl, rfl⟩ := stepped
      simp
  | absent | dormant => contradiction
  | _ => simp [EventPc.early] at early

/-- What holds in every state before the session, wherever init is. -/
structure BeforeSession (s : State cfg) : Prop where
  state : s.sh.g.gState ≠ .started
  table : s.sh.g.gHandlers = Vector.replicate _ .empty
  count : s.sh.g.gHandlerCount = 0
  default : s.sh.g.gDefaultHandlerIndex = -1
  head : s.sh.g.gHead = 0
  live : s.sh.k.mem.live = ∅
  units : ∀ id sema, s.sh.k.semas id = some sema → sema.holder = none
  early : ∀ thid, (s.threads thid).early = true
  clients : ∀ n, (s.clients n).BeforeSession
  history : ∀ event ∈ s.sh.history, event.BeforeSession
  running : s.crashed = false

/-- How far init is on its way to success; the cleanup comes last. -/
def InitPc.rank : InitPc → Nat
  | .stdout => 0
  | .starting => 1
  | .createVpl => 2
  | .createEventFlag => 3
  | .createSema => 4
  | .createThread => 5
  | .setVplid => 6
  | .setEvid => 7
  | .setSemid => 8
  | .setThid => 9
  | .setDefault => 10
  | .setCount => 11
  | .setHead => 12
  | .startThread => 13
  | .install _ => 14
  | .started => 15
  | .terminateThread | .deleteSema | .deleteEventFlag | .deleteVpl | .stopped => 16

/-- What init has achieved at each of its program points up to the success. -/
structure InitDone (sh : Shared cfg) (threads : Threads) (pc : InitPc) (l : InitLocals)
    : Prop where
  vpl : 3 ≤ pc.rank → sh.k.vpls l.vplid = true
  evflag : 4 ≤ pc.rank → sh.k.evflags l.evid = some 0
  sema : 5 ≤ pc.rank → sh.k.semas l.semid = some ⟨1, 1, none⟩
  alone : pc.rank ≤ 5 → ∀ thid, threads thid = .absent
  others : 6 ≤ pc.rank → ∀ thid, thid ≠ l.thid → threads thid = .absent
  dormant : 6 ≤ pc.rank → pc.rank ≤ 13 → threads l.thid = .dormant
  polling : 14 ≤ pc.rank → threads l.thid = .poll ∨ threads l.thid = .pollDelay
  gVplid : 7 ≤ pc.rank → sh.g.gVplid = l.vplid
  gEvid : 8 ≤ pc.rank → sh.g.gEvid = l.evid
  gSemid : 9 ≤ pc.rank → sh.g.gSemid = l.semid
  gThid : 10 ≤ pc.rank → sh.g.gThid = l.thid
  install : ∀ api, pc = .install api → api.free = true

/-- A quiet change keeps what init has achieved. -/
theorem InitDone.quiet {sh sh' : Shared cfg} {threads : Threads} {pc : InitPc} {l : InitLocals}
    (done : InitDone sh threads pc l) (quiet : sh.Quiet sh')
    : InitDone sh' threads pc l := by
  have g := quiet.g
  have vpls := quiet.vpls
  have evflags := quiet.evflags
  have semas := quiet.semas
  exact
    { done with
      vpl := by simpa only [vpls] using done.vpl
      evflag := by simpa only [evflags] using done.evflag
      sema := by simpa only [semas] using done.sema
      gVplid := by simpa only [g] using done.gVplid
      gEvid := by simpa only [g] using done.gEvid
      gSemid := by simpa only [g] using done.gSemid
      gThid := by simpa only [g] using done.gThid }

/-- A step of the polling event thread keeps what init has achieved. -/
theorem InitDone.poll {sh : Shared cfg} {threads : Threads} {pc : InitPc} {l : InitLocals}
    {thid : Uid} {pc' : EventPc} (done : InitDone sh threads pc l)
    (polls : threads thid = .poll ∨ threads thid = .pollDelay)
    (polls' : pc' = .poll ∨ pc' = .pollDelay)
    : InitDone sh (Function.update threads thid pc') pc l := by
  have early : ¬ pc.rank ≤ 5 := by
    intro early
    simp [done.alone early thid] at polls
  have self : thid = l.thid := by
    by_contra other
    simp [done.others (by omega) thid other] at polls
  subst self
  refine
    { done with
      alone := fun rank => absurd rank early
      others := fun rank other different => ?_
      dormant := fun low high => ?_
      polling := fun rank => ?_ }
  · rw [Function.update_of_ne different]
    exact done.others rank other different
  · simp [done.dormant low high] at polls
  · simpa using polls'

-----------------------------------------------------------------------------------------
-- The steps of init
-----------------------------------------------------------------------------------------

/-- A creating call succeeds with a fresh positive id or fails with a negative code. -/
theorem createStep_eq_next {choice : Choice cfg} {fresh : Uid → Bool}
    {success : Uid → LoaderState cfg} {failure : Int → LoaderState cfg} {next : LoaderState cfg}
    : createStep choice fresh success failure = .next next
      ↔ (∃ id, choice = .answer id ∧ 0 < id ∧ fresh id = true ∧ success id = next)
        ∨ ∃ code < 0, choice = .fail code ∧ failure code = next := by
  cases choice with
  | answer id =>
      by_cases fits : 0 < id ∧ fresh id = true
      · simp [createStep, fits]
      · have impossible : ¬ ∃ id', id = id' ∧ 0 < id' ∧ fresh id' = true ∧ success id' = next := by
          rintro ⟨_, rfl, positive, unused, _⟩
          exact fits ⟨positive, unused⟩
        simpa [createStep, fits] using impossible
  | fail code => by_cases negative : code < 0 <;> simp [createStep, negative]
  | _ => simp [createStep]

/-- While init installs the handler it runs the API function, then tests its result. -/
theorem initStep_install {sh : Shared cfg} {threads : Threads} {api : ApiPc} {l : InitLocals}
    {choice : Choice cfg} {next : LoaderState cfg}
    (stepped : initStep sh threads (.install api) l choice = .next next)
    : (∃ ret, api = .done ret
        ∧ (sh, threads,
            if ret < 0 then LoaderPc.init .terminateThread { l with ret := ret }
            else .init .started l) = next)
      ∨ ∃ sh' api', apiStep (.event l.thid) sh api choice = .next (sh', api')
        ∧ (sh', threads, .init (.install api') l) = next := by
  by_cases returns : ∃ ret, api = .done ret
  · obtain ⟨ret, rfl⟩ := returns
    simp only [initStep, Choice.onGo_eq_next, StepResult.next.injEq] at stepped
    exact Or.inl ⟨ret, rfl, stepped.2⟩
  · rw [initStep, StepResult.map_eq_next] at stepped
    · obtain ⟨⟨sh', api'⟩, stepped, same⟩ := stepped
      exact Or.inr ⟨sh', api', stepped, same⟩
    · intro ret same
      exact returns ⟨ret, same⟩

/-- Before the thread exists only the objects are there to claim. -/
theorem InitDone.beforeThread {sh : Shared cfg} {threads : Threads} {pc : InitPc} {l : InitLocals}
    (early : pc.rank ≤ 5) (alone : ∀ thid, threads thid = .absent)
    (vpl : 3 ≤ pc.rank → sh.k.vpls l.vplid = true)
    (evflag : 4 ≤ pc.rank → sh.k.evflags l.evid = some 0)
    (sema : 5 ≤ pc.rank → sh.k.semas l.semid = some ⟨1, 1, none⟩)
    : InitDone sh threads pc l where
  vpl := vpl
  evflag := evflag
  sema := sema
  alone := fun _ => alone
  others := fun reached => by omega
  dormant := fun reached => by omega
  polling := fun reached => by omega
  gVplid := fun reached => by omega
  gEvid := fun reached => by omega
  gSemid := fun reached => by omega
  gThid := fun reached => by omega
  install := by
    rintro api rfl
    simp [InitPc.rank] at early

/-- A store to the globals, between the creation and the start of the thread, makes one more
of them valid.
-/
theorem InitDone.store {sh sh' : Shared cfg} {threads : Threads} {pc pc' : InitPc}
    {l : InitLocals} (done : InitDone sh threads pc l) (next : pc'.rank = pc.rank + 1)
    (low : 6 ≤ pc.rank) (high : pc.rank ≤ 12) (k : sh'.k = sh.k)
    (gVplid : sh'.g.gVplid = if pc.rank = 6 then l.vplid else sh.g.gVplid)
    (gEvid : sh'.g.gEvid = if pc.rank = 7 then l.evid else sh.g.gEvid)
    (gSemid : sh'.g.gSemid = if pc.rank = 8 then l.semid else sh.g.gSemid)
    (gThid : sh'.g.gThid = if pc.rank = 9 then l.thid else sh.g.gThid)
    : InitDone sh' threads pc' l where
  vpl := fun _ => k ▸ done.vpl (by omega)
  evflag := fun _ => k ▸ done.evflag (by omega)
  sema := fun _ => k ▸ done.sema (by omega)
  alone := fun reached => by omega
  others := fun _ => done.others low
  dormant := fun _ _ => done.dormant low (high.trans (by decide))
  polling := fun reached => absurd reached (by omega)
  gVplid := fun reached => by
    rw [gVplid]
    split
    · rfl
    · exact done.gVplid (by omega)
  gEvid := fun reached => by
    rw [gEvid]
    split
    · rfl
    · exact done.gEvid (by omega)
  gSemid := fun reached => by
    rw [gSemid]
    split
    · rfl
    · exact done.gSemid (by omega)
  gThid := fun reached => by
    rw [gThid]
    split
    · rfl
    · exact done.gThid (by omega)
  install := by
    rintro api rfl
    have last : 14 = pc.rank + 1 := next
    omega

/-- Every step of init towards success achieves what its next program point claims, by cases
of the program point.
-/
theorem initStep_done {sh sh' : Shared cfg} {threads threads' : Threads} {pc pc' : InitPc}
    {l l' : InitLocals} {choice : Choice cfg}
    (stepped : initStep sh threads pc l choice = .next (sh', threads', .init pc' l'))
    (state : sh.g.gState ≠ .started)
    (done : pc.rank ≤ 15 → InitDone sh threads pc l) (ahead : pc'.rank ≤ 15)
    : InitDone sh' threads' pc' l' := by
  cases pc with
  | stdout =>
      simp only [initStep] at stepped
      split at stepped
      · cases stepped
        exact .beforeThread (by decide) ((done (by decide)).alone (by decide))
          (fun reached => absurd reached (by decide)) (fun reached => absurd reached (by decide))
          (fun reached => absurd reached (by decide))
      · contradiction
  | starting =>
      simp only [initStep, Choice.onGo_eq_next, StepResult.next.injEq] at stepped
      obtain ⟨_, same⟩ := stepped
      cases same
      exact .beforeThread (by decide) ((done (by decide)).alone (by decide))
        (fun reached => absurd reached (by decide)) (fun reached => absurd reached (by decide))
        (fun reached => absurd reached (by decide))
  | createVpl =>
      have earlier := done (by decide)
      simp only [initStep, createStep_eq_next] at stepped
      obtain ⟨id, _, _, fresh, same⟩ | ⟨code, negative, _, same⟩ := stepped <;> cases same
      · exact .beforeThread (by decide) (earlier.alone (by decide)) (fun _ => by simp)
          (fun reached => absurd reached (by decide)) (fun reached => absurd reached (by decide))
      · simp [InitPc.rank] at ahead
  | createEventFlag =>
      have earlier := done (by decide)
      simp only [initStep, createStep_eq_next] at stepped
      obtain ⟨id, _, _, fresh, same⟩ | ⟨code, negative, _, same⟩ := stepped <;> cases same
      · exact .beforeThread (by decide) (earlier.alone (by decide))
          (fun _ => earlier.vpl (by decide)) (fun _ => by simp)
          (fun reached => absurd reached (by decide))
      · simp [InitPc.rank] at ahead
  | createSema =>
      have earlier := done (by decide)
      simp only [initStep, createStep_eq_next] at stepped
      obtain ⟨id, _, _, fresh, same⟩ | ⟨code, negative, _, same⟩ := stepped <;> cases same
      · exact .beforeThread (by decide) (earlier.alone (by decide))
          (fun _ => earlier.vpl (by decide)) (fun _ => earlier.evflag (by decide))
          (fun _ => by simp)
      · simp [InitPc.rank] at ahead
  | createThread =>
      have earlier := done (by decide)
      simp only [initStep, createStep_eq_next] at stepped
      obtain ⟨id, _, _, fresh, same⟩ | ⟨code, negative, _, same⟩ := stepped <;> cases same
      · exact
          { vpl := fun _ => earlier.vpl (by decide)
            evflag := fun _ => earlier.evflag (by decide)
            sema := fun _ => earlier.sema (by decide)
            alone := fun reached => absurd reached (by decide)
            others := fun _ thid different => by
              simpa [different] using earlier.alone (by decide) thid
            dormant := fun _ _ => by simp
            polling := fun reached => absurd reached (by decide)
            gVplid := fun reached => absurd reached (by decide)
            gEvid := fun reached => absurd reached (by decide)
            gSemid := fun reached => absurd reached (by decide)
            gThid := fun reached => absurd reached (by decide)
            install := by simp }
      · simp [InitPc.rank] at ahead
  | setVplid | setEvid | setSemid | setThid | setDefault | setCount | setHead =>
      simp only [initStep, Choice.onGo_eq_next, StepResult.next.injEq] at stepped
      obtain ⟨_, same⟩ := stepped
      cases same
      exact (done (by decide)).store rfl (by decide) (by decide) rfl rfl rfl rfl rfl
  | startThread =>
      have earlier := done (by decide)
      simp only [initStep, Choice.onKernel_eq_next] at stepped
      obtain ⟨_, stepped⟩ | ⟨code, negative, _, same⟩ := stepped
      · split at stepped
        · cases stepped
          exact
            { vpl := fun _ => earlier.vpl (by decide)
              evflag := fun _ => earlier.evflag (by decide)
              sema := fun _ => earlier.sema (by decide)
              alone := fun reached => by simp [InitPc.rank] at reached
              others := fun _ thid different => by
                simpa [different] using earlier.others (by decide) thid different
              dormant := fun _ reached => by simp [InitPc.rank] at reached
              polling := fun _ => Or.inl (by simp)
              gVplid := fun _ => earlier.gVplid (by decide)
              gEvid := fun _ => earlier.gEvid (by decide)
              gSemid := fun _ => earlier.gSemid (by decide)
              gThid := fun _ => earlier.gThid (by decide)
              install := by
                rintro _ ⟨⟩
                rfl }
        · contradiction
      · cases same
        simp [InitPc.rank] at ahead
  | install api =>
      have reached := done (by simp [InitPc.rank])
      obtain ⟨ret, rfl, same⟩ | ⟨sh'', api', ran, same⟩ := initStep_install stepped
      · split at same <;> cases same
        · simp [InitPc.rank] at ahead
        · exact
            { vpl := fun _ => reached.vpl (by simp [InitPc.rank])
              evflag := fun _ => reached.evflag (by simp [InitPc.rank])
              sema := fun _ => reached.sema (by simp [InitPc.rank])
              alone := fun low => by simp [InitPc.rank] at low
              others := fun _ => reached.others (by simp [InitPc.rank])
              dormant := fun _ low => by simp [InitPc.rank] at low
              polling := fun _ => reached.polling (by simp [InitPc.rank])
              gVplid := fun _ => reached.gVplid (by simp [InitPc.rank])
              gEvid := fun _ => reached.gEvid (by simp [InitPc.rank])
              gSemid := fun _ => reached.gSemid (by simp [InitPc.rank])
              gThid := fun _ => reached.gThid (by simp [InitPc.rank])
              install := by simp }
      · cases same
        obtain ⟨quiet, free⟩ := (apiStep_effect ran).quiet (reached.install api rfl) state
        refine { reached.quiet quiet with install := ?_ }
        rintro _ ⟨⟩
        exact free
  | started | stopped => simp [initStep] at stepped
  | terminateThread | deleteSema | deleteEventFlag | deleteVpl =>
      simp only [initStep, Choice.onGo_eq_next, StepResult.next.injEq] at stepped
      obtain ⟨_, stepped⟩ := stepped
      split at stepped <;> cases stepped <;> simp [InitPc.rank] at ahead

/-- One more event of the startup keeps the history one of before the session. -/
theorem BeforeSession.note {s : State cfg} (before : BeforeSession s) {event : Event}
    (fits : event.BeforeSession)
    : ∀ other ∈ s.sh.history ++ [event], other.BeforeSession := by
  intro other member
  rcases List.mem_append.mp member with old | new
  · exact before.history other old
  · rw [List.mem_singleton.mp new]
    exact fits

/-- A quiet change keeps the invariant. -/
theorem BeforeSession.of_quiet {s : State cfg} {sh' : Shared cfg} (before : BeforeSession s)
    (quiet : s.sh.Quiet sh')
    : BeforeSession { s with sh := sh' } := by
  obtain ⟨g, mem, vpls, evflags, semas, events, appended, fits⟩ := quiet
  refine
    { before with
      state := by simpa only [g] using before.state
      table := by simpa only [g] using before.table
      count := by simpa only [g] using before.count
      default := by simpa only [g] using before.default
      head := by simpa only [g] using before.head
      live := by simpa only [mem] using before.live
      units := by simpa only [semas] using before.units
      history := ?_ }
  intro event member
  simp only [appended, List.mem_append] at member
  exact member.elim (before.history event) (fits event)

/-- Every step of init short of success keeps the invariant, by cases of the program point. -/
theorem initStep_before {s : State cfg} {sh' : Shared cfg} {threads' : Threads} {pc : InitPc}
    {l : InitLocals} {loader' : LoaderPc} {choice : Choice cfg}
    (stepped : initStep s.sh s.threads pc l choice = .next (sh', threads', loader'))
    (before : BeforeSession s) (install : ∀ api, pc = .install api → api.free = true)
    (ahead : loader'.inSession = false)
    : BeforeSession { s with sh := sh', threads := threads', loader := loader' } := by
  have early (thid : Uid) (pc' : EventPc) (fits : pc'.early = true) (other : Uid) :
      (Function.update s.threads thid pc' other).early = true := by
    by_cases same : other = thid
    · subst same
      simpa using fits
    · rw [Function.update_of_ne same]
      exact before.early other
  have units (semid : Uid) (now : Option Sema) (idle : ∀ sema, now = some sema → sema.holder = none)
      (id : Uid) (sema : Sema) (found : Function.update s.sh.k.semas semid now id = some sema) :
      sema.holder = none := by
    by_cases same : id = semid
    · subst same
      exact idle sema (by simpa using found)
    · exact before.units id sema (by simpa [same] using found)
  cases pc with
  | stdout =>
      simp only [initStep] at stepped
      split at stepped
      · cases stepped
        exact { before with }
      · contradiction
  | createVpl | createEventFlag =>
      simp only [initStep, createStep_eq_next] at stepped
      obtain ⟨id, _, _, fresh, same⟩ | ⟨code, negative, _, same⟩ := stepped <;> cases same
      · exact { before with history := before.note trivial }
      · exact { before with }
  | createSema =>
      simp only [initStep, createStep_eq_next] at stepped
      obtain ⟨id, _, _, fresh, same⟩ | ⟨code, negative, _, same⟩ := stepped <;> cases same
      · exact { before with history := before.note trivial, units := units _ _ (by simp) }
      · exact { before with }
  | createThread =>
      simp only [initStep, createStep_eq_next] at stepped
      obtain ⟨id, _, _, fresh, same⟩ | ⟨code, negative, _, same⟩ := stepped <;> cases same
      · exact { before with history := before.note trivial, early := early _ _ rfl }
      · exact { before with }
  | startThread =>
      simp only [initStep, Choice.onKernel_eq_next] at stepped
      obtain ⟨_, stepped⟩ | ⟨code, negative, _, same⟩ := stepped
      · split at stepped
        · cases stepped
          exact { before with early := early _ _ rfl }
        · contradiction
      · cases same
        exact { before with }
  | install api =>
      obtain ⟨ret, _, same⟩ | ⟨sh'', api', ran, same⟩ := initStep_install stepped <;>
        cases same
      · exact { before with }
      · obtain ⟨quiet, _⟩ := (apiStep_effect ran).quiet (install api rfl) before.state
        exact { before.of_quiet quiet with }
  | setVplid | setEvid | setSemid | setThid =>
      simp only [initStep, Choice.onGo_eq_next, StepResult.next.injEq] at stepped
      obtain ⟨_, same⟩ := stepped
      cases same
      exact { before with }
  | setDefault | setCount | setHead =>
      simp only [initStep, Choice.onGo_eq_next, StepResult.next.injEq] at stepped
      obtain ⟨_, same⟩ := stepped
      cases same
      exact { before with default := by simp [before.default], count := by simp [before.count],
                          head := by simp [before.head] }
  | starting | stopped =>
      simp only [initStep, Choice.onGo_eq_next, StepResult.next.injEq] at stepped
      obtain ⟨_, same⟩ := stepped
      cases same
      exact { before with state := by simp [Shared.note], history := before.note trivial }
  | started =>
      simp only [initStep, Choice.onGo_eq_next, StepResult.next.injEq] at stepped
      obtain ⟨_, same⟩ := stepped
      cases same
      simp [LoaderPc.inSession] at ahead
  | terminateThread =>
      simp only [initStep, Choice.onGo_eq_next, StepResult.next.injEq] at stepped
      obtain ⟨_, stepped⟩ := stepped
      split at stepped <;> cases stepped
      · exact { before with history := before.note trivial, early := early _ _ rfl }
      · exact { before with }
  | deleteSema =>
      simp only [initStep, Choice.onGo_eq_next, StepResult.next.injEq] at stepped
      obtain ⟨_, stepped⟩ := stepped
      split at stepped <;> cases stepped
      · exact { before with history := before.note trivial, units := units _ _ (by simp) }
      · exact { before with }
  | deleteEventFlag =>
      simp only [initStep, Choice.onGo_eq_next, StepResult.next.injEq] at stepped
      obtain ⟨_, stepped⟩ := stepped
      split at stepped <;> cases stepped
      · exact { before with history := before.note trivial }
      · exact { before with }
  | deleteVpl =>
      simp only [initStep, Choice.onGo_eq_next, StepResult.next.injEq] at stepped
      obtain ⟨_, stepped⟩ := stepped
      split at stepped <;> cases stepped
      · exact
          { before with
            history := before.note trivial
            live := by simp [Shared.note, before.live] }
      · exact { before with }

-----------------------------------------------------------------------------------------
-- The start of the session
-----------------------------------------------------------------------------------------

/-- The state right after init has stored `STATE_STARTED`. -/
structure Fresh (s : State cfg) : Prop where
  loader : s.loader = .resident
  state : s.sh.g.gState = .started
  table : s.sh.g.gHandlers = Vector.replicate _ .empty
  count : s.sh.g.gHandlerCount = 0
  default : s.sh.g.gDefaultHandlerIndex = -1
  head : s.sh.g.gHead = 0
  live : s.sh.k.mem.live = ∅
  vpl : s.sh.k.vpls s.sh.g.gVplid = true
  evflag : s.sh.k.evflags s.sh.g.gEvid = some 0
  sema : s.sh.k.semas s.sh.g.gSemid = some ⟨1, 1, none⟩
  polling : s.threads s.sh.g.gThid = .poll ∨ s.threads s.sh.g.gThid = .pollDelay
  others : ∀ thid, thid ≠ s.sh.g.gThid → s.threads thid = .absent
  clients : ∀ n, (s.clients n).BeforeSession
  history : ∀ event ∈ s.sh.history, event.BeforeSession
  running : s.crashed = false

/-- The last store of init starts a fresh session. -/
theorem fresh_of_started {s : State cfg} {sh' : Shared cfg} {threads' : Threads} {l : InitLocals}
    {loader' : LoaderPc} {choice : Choice cfg}
    (stepped : initStep s.sh s.threads .started l choice = .next (sh', threads', loader'))
    (before : BeforeSession s) (done : InitDone s.sh s.threads .started l)
    : Fresh { s with sh := sh', threads := threads', loader := loader' } := by
  obtain ⟨vpl, evflag, sema, alone, others, dormant, polling, gVplid, gEvid, gSemid, gThid,
    install⟩ := done
  simp only [initStep, Choice.onGo_eq_next, StepResult.next.injEq] at stepped
  obtain ⟨_, same⟩ := stepped
  cases same
  simp only [InitPc.rank, Nat.reduceLeDiff, forall_const] at *
  exact
    { loader := rfl
      state := rfl
      table := before.table
      count := before.count
      default := before.default
      head := before.head
      live := before.live
      vpl := by simpa only [Shared.note, gVplid] using vpl
      evflag := by simpa only [Shared.note, gEvid] using evflag
      sema := by simpa only [Shared.note, gSemid] using sema
      polling := by simpa only [Shared.note, gThid] using polling
      others := by simpa only [Shared.note, gThid] using others
      clients := before.clients
      history := before.note trivial
      running := before.running }

/-- Only the last store of init starts a session, and no step of init unloads the image. -/
theorem initStep_loader {sh sh' : Shared cfg} {threads threads' : Threads} {pc : InitPc}
    {l : InitLocals} {loader' : LoaderPc} {choice : Choice cfg}
    (stepped : initStep sh threads pc l choice = .next (sh', threads', loader'))
    : (pc = .started ∨ loader'.inSession = false) ∧ loader' ≠ .loaded := by
  cases pc with
  | install api =>
      obtain ⟨ret, _, same⟩ | ⟨sh'', api', _, same⟩ := initStep_install stepped
      · split at same <;> cases same <;> simp [LoaderPc.inSession]
      · cases same
        simp [LoaderPc.inSession]
  | stdout =>
      simp only [initStep] at stepped
      split at stepped
      · cases stepped
        simp [LoaderPc.inSession]
      · contradiction
  | createVpl | createEventFlag | createSema | createThread =>
      simp only [initStep, createStep_eq_next] at stepped
      obtain ⟨id, _, _, _, same⟩ | ⟨code, _, _, same⟩ := stepped <;> cases same <;>
        simp [LoaderPc.inSession]
  | startThread =>
      simp only [initStep, Choice.onKernel_eq_next] at stepped
      obtain ⟨_, stepped⟩ | ⟨code, _, _, same⟩ := stepped
      · split at stepped <;> cases stepped
        simp [LoaderPc.inSession]
      · cases same
        simp [LoaderPc.inSession]
  | terminateThread | deleteSema | deleteEventFlag | deleteVpl =>
      simp only [initStep, Choice.onGo_eq_next, StepResult.next.injEq] at stepped
      obtain ⟨_, stepped⟩ := stepped
      split at stepped <;> cases stepped <;> simp [LoaderPc.inSession]
  | _ =>
      simp only [initStep, Choice.onGo_eq_next, StepResult.next.injEq] at stepped
      obtain ⟨_, same⟩ := stepped
      cases same
      simp [LoaderPc.inSession]

/-- The invariant before the session, with what init has achieved. -/
structure Starting (s : State cfg) : Prop where
  before : BeforeSession s
  init : ∀ pc l, s.loader = .init pc l → pc.rank ≤ 15 → InitDone s.sh s.threads pc l
  loaded : s.loader = .loaded → ∀ thid, s.threads thid = .absent

/-- No thread can touch message memory before the session. -/
theorem Starting.no_fault {s : State cfg} {action : Action cfg} (starting : Starting s)
    (outside : s.loader.inSession = false)
    : ¬ s.Faults action := by
  have state := starting.before.state
  intro faults
  cases action with
  | kprintf call => exact kprintf_unstarted_ne_fault state faults
  | event thid choice =>
      have early := starting.before.early thid
      simp only [State.Faults] at faults
      cases pc : s.threads thid <;> simp [pc, EventPc.early, eventStep] at early faults
  | client n choice =>
      simp only [State.Faults, clientStep] at faults
      split at faults
      · split at faults <;> simp at faults
      · obtain ⟨during, faults⟩ := apiCallStep_fault (StepResult.map_eq_fault.mp faults)
        exact kprintf_unstarted_ne_fault state faults
  | loader choice =>
      simp only [State.Faults, loaderStep] at faults
      cases place : s.loader with
      | loaded | failed =>
          simp only [place] at faults
          split at faults <;> simp at faults
      | resident | stop | stopped => simp [place, LoaderPc.inSession] at outside
      | init pc l =>
          simp only [place] at faults
          cases pc with
          | install api =>
              by_cases returns : ∃ ret, api = .done ret
              · obtain ⟨ret, rfl⟩ := returns
                simp [initStep] at faults
              · rw [initStep, StepResult.map_eq_fault] at faults
                · obtain ⟨during, faults⟩ := apiStep_fault faults
                  exact kprintf_unstarted_ne_fault state faults
                · intro ret same
                  exact returns ⟨ret, same⟩
          | stdout => cases choice <;> simp [initStep] at faults
          | createVpl | createEventFlag | createSema | createThread =>
              simp only [initStep, createStep] at faults
              split at faults
              · split at faults <;> simp at faults
              · split at faults <;> simp at faults
              · simp at faults
          | startThread =>
              simp only [initStep, Choice.onKernel_eq_fault] at faults
              obtain ⟨_, faults⟩ := faults
              split at faults <;> simp at faults
          | _ => simp [initStep] at faults
  | overRegister => exact faults

/-- Before the session every step of a single session keeps the invariant, except the one
that starts the session.
-/
theorem Starting.step {s t : State cfg} {action : Action cfg} (starting : Starting s)
    (outside : s.loader.inSession = false) (single : SingleSession s action)
    (stepped : s.step action = some t)
    : t.loader.inSession = false ∧ Starting t ∨ Fresh t := by
  have safe : ¬ s.Faults action := starting.no_fault outside
  obtain ⟨before, init, loaded⟩ := starting
  have quietly (sh' : Shared cfg) (quiet : s.sh.Quiet sh') : Starting { s with sh := sh' } :=
    ⟨before.of_quiet quiet, fun pc l place ahead => (init pc l place ahead).quiet quiet, loaded⟩
  cases State.step_cases stepped with
  | crash faults => exact absurd faults safe
  | kprintf printed =>
      rw [kprintf_unstarted before.state printed]
      exact Or.inl ⟨outside, before, init, loaded⟩
  | @event thid choice sh' pc' ran =>
      obtain ⟨rfl, polls, polls'⟩ := eventStep_early ran (before.early thid) before.state
      refine Or.inl ⟨outside, { before with early := fun other => ?_ }, ?_, ?_⟩
      · by_cases same : other = thid
        · subst same
          rcases polls' with rfl | rfl <;> simp [EventPc.early]
        · simpa [same] using before.early other
      · exact fun pc l place ahead => (init pc l place ahead).poll polls polls'
      · intro place
        simp [loaded place thid] at polls
  | @client n choice sh' pc' ran =>
      obtain ⟨quiet, place⟩ := (clientStep_effect ran).quiet (before.clients n) before.state
      obtain ⟨before', init', loaded'⟩ := quietly sh' quiet
      refine Or.inl ⟨outside, { before' with clients := fun other => ?_ }, init', loaded'⟩
      by_cases same : other = n
      · subst same
        simpa using place
      · simpa [same] using before.clients other
  | @loader choice sh' threads' loader' ran =>
      cases place : s.loader with
      | loaded =>
          simp only [loaderStep, place] at ran
          split at ran
          · cases ran
            refine Or.inl ⟨rfl, { before with }, ?_, by simp⟩
            rintro _ _ ⟨rfl, rfl⟩ _
            constructor <;> simp [InitPc.rank, loaded place]
          · contradiction
      | failed =>
          simp only [loaderStep, place] at ran
          split at ran
          · simp [SingleSession, Action.isStart, place] at single
          · contradiction
      | resident | stop | stopped => simp [place, LoaderPc.inSession] at outside
      | init pc l =>
          simp only [loaderStep, place] at ran
          by_cases starts : pc = .started
          · subst starts
            exact Or.inr (fresh_of_started ran before (init _ l place (by decide)))
          · obtain ⟨outcome, notLoaded⟩ := initStep_loader ran
            have ahead := outcome.resolve_left starts
            refine Or.inl ⟨ahead, initStep_before ran before ?_ ahead, ?_, ?_⟩
            · rintro api rfl
              exact (init _ l place (by simp [InitPc.rank])).install api rfl
            · rintro pc' l' rfl ahead'
              exact initStep_done ran before.state (init pc l place) ahead'
            · exact fun same => absurd same notLoaded
  | overRegister =>
      exact Or.inl ⟨outside, quietly _ ⟨rfl, rfl, rfl, rfl, rfl, [], by simp, by simp⟩⟩

end LibKprintf
