import LibKprintf.Start.Ownership

/-! What a running init has achieved at each of its program points: for every failing kernel
call, and for every interleaving with the event thread it may have started and with others.
-/

namespace LibKprintf

open Foundation

variable {cfg : Config}

/-- What the local variables and the globals say at each program point of init. -/
structure Located (g : Globals cfg) (pc : InitPc) (l : InitLocals) : Prop where
  vplid : if pc.rank ≤ 2 then l.vplid = -1 else pc.rank ≤ 15 → 0 < l.vplid
  evid : if pc.rank ≤ 3 then l.evid = -1 else pc.rank ≤ 15 → 0 < l.evid
  semid : if pc.rank ≤ 4 then l.semid = -1 else pc.rank ≤ 15 → 0 < l.semid
  thid : if pc.rank ≤ 5 then l.thid = -1 else pc.rank ≤ 15 → 0 < l.thid
  gVplid : 7 ≤ pc.rank → pc.rank ≤ 15 → g.gVplid = l.vplid
  gEvid : 8 ≤ pc.rank → pc.rank ≤ 15 → g.gEvid = l.evid
  gSemid : 9 ≤ pc.rank → pc.rank ≤ 15 → g.gSemid = l.semid
  gThid : 10 ≤ pc.rank → pc.rank ≤ 15 → g.gThid = l.thid
  failing : 16 ≤ pc.rank → l.ret < 0
  install : ∀ api, pc = .install api → api = .dipsw ∨ api = .registerHook ∨ ∃ ret, api = .done ret

/-- In the cleanup only the error code matters. -/
theorem Located.cleanup {g : Globals cfg} {pc : InitPc} {l : InitLocals} (last : pc.rank = 16)
    (failing : l.ret < 0)
    : Located g pc l := by
  refine ⟨?_, ?_, ?_, ?_, ?_, ?_, ?_, ?_, fun _ => failing, ?_⟩
  all_goals first | simp [last] | (rintro api rfl; simp [InitPc.rank] at last)

/-- Up to the creation of the thread only the local variables matter. -/
theorem Located.creating {g : Globals cfg} {pc : InitPc} {l : InitLocals} (early : pc.rank ≤ 6)
    (vplid : if pc.rank ≤ 2 then l.vplid = -1 else 0 < l.vplid)
    (evid : if pc.rank ≤ 3 then l.evid = -1 else 0 < l.evid)
    (semid : if pc.rank ≤ 4 then l.semid = -1 else 0 < l.semid)
    (thid : if pc.rank ≤ 5 then l.thid = -1 else 0 < l.thid)
    : Located g pc l := by
  have named {id : Uid} {last : Nat} (value : if pc.rank ≤ last then id = -1 else 0 < id)
      : if pc.rank ≤ last then id = -1 else pc.rank ≤ 15 → 0 < id := by
    split_ifs at value ⊢ with before
    · exact value
    · exact fun _ => value
  refine ⟨named vplid, named evid, named semid, named thid, fun late => by omega,
    fun late => by omega, fun late => by omega, fun late => by omega, fun late => by omega, ?_⟩
  intro api same
  have late : (InitPc.install api).rank = 14 := rfl
  rw [same] at early
  omega

/-- Between the creation of the thread and the success one global is stored at a time. -/
theorem Located.store {g g' : Globals cfg} {pc pc' : InitPc} {l : InitLocals}
    (located : Located g pc l) (next : pc'.rank = pc.rank + 1) (low : 6 ≤ pc.rank)
    (high : pc.rank ≤ 12)
    (gVplid : g'.gVplid = if pc.rank = 6 then l.vplid else g.gVplid)
    (gEvid : g'.gEvid = if pc.rank = 7 then l.evid else g.gEvid)
    (gSemid : g'.gSemid = if pc.rank = 8 then l.semid else g.gSemid)
    (gThid : g'.gThid = if pc.rank = 9 then l.thid else g.gThid)
    : Located g' pc' l := by
  obtain ⟨vplid, evid, semid, thid, gVplid', gEvid', gSemid', gThid', failing, install⟩ := located
  rw [if_neg (by omega)] at vplid evid semid thid
  refine ⟨?_, ?_, ?_, ?_, ?_, ?_, ?_, ?_, fun late => by omega, ?_⟩
  · rw [if_neg (by omega)]
    exact fun _ => vplid (by omega)
  · rw [if_neg (by omega)]
    exact fun _ => evid (by omega)
  · rw [if_neg (by omega)]
    exact fun _ => semid (by omega)
  · rw [if_neg (by omega)]
    exact fun _ => thid (by omega)
  · intro reached _
    by_cases now : pc.rank = 6
    · simpa [now] using gVplid
    · rw [gVplid, if_neg now]
      exact gVplid' (by omega) (by omega)
  · intro reached _
    by_cases now : pc.rank = 7
    · simpa [now] using gEvid
    · rw [gEvid, if_neg now]
      exact gEvid' (by omega) (by omega)
  · intro reached _
    by_cases now : pc.rank = 8
    · simpa [now] using gSemid
    · rw [gSemid, if_neg now]
      exact gSemid' (by omega) (by omega)
  · intro reached _
    by_cases now : pc.rank = 9
    · simpa [now] using gThid
    · rw [gThid, if_neg now]
      exact gThid' (by omega) (by omega)
  · rintro api rfl
    have ahead : 14 = pc.rank + 1 := next
    omega

/-- What init has achieved since the state `s` at each of its program points. -/
structure Initializing (s : State cfg) (sh : Shared cfg) (threads : Threads) (pc : InitPc)
    (l : InitLocals)
    : Prop where
  owns : Owns s sh threads l pc.freed
  located : Located sh.g pc l

/-- install_kernel_handler changes nothing but the hook. -/
theorem installStep_cases {thread : ThreadRef} {sh sh' : Shared cfg} {api api' : ApiPc}
    {choice : Choice cfg} (ran : apiStep thread sh api choice = .next (sh', api'))
    (place : api = .dipsw ∨ api = .registerHook ∨ ∃ ret, api = .done ret)
    : (∃ hook, sh'.k = { sh.k with hook := hook }) ∧ sh'.g = sh.g ∧ sh'.history = sh.history
      ∧ (api' = .dipsw ∨ api' = .registerHook ∨ ∃ ret, api' = .done ret) := by
  rcases place with rfl | rfl | ⟨ret, rfl⟩
  · simp only [apiStep, Choice.onKernel_eq_next, StepResult.next.injEq, Prod.mk.injEq] at ran
    obtain ⟨_, rfl, rfl⟩ | ⟨code, _, _, rfl, rfl⟩ := ran <;>
      exact ⟨⟨sh.k.hook, rfl⟩, rfl, rfl, by simp⟩
  · simp only [apiStep, Choice.onGo_eq_next, StepResult.next.injEq, Prod.mk.injEq] at ran
    obtain ⟨_, rfl, rfl⟩ := ran
    exact ⟨⟨_, rfl⟩, rfl, rfl, by simp⟩
  · contradiction

/-- Every step of init that stays in init keeps this, by cases of the program point. -/
theorem Initializing.init {s : State cfg} {sh sh' : Shared cfg} {threads threads' : Threads}
    {pc pc' : InitPc} {l l' : InitLocals} {choice : Choice cfg}
    (initializing : Initializing s sh threads pc l)
    (stepped : initStep sh threads pc l choice = .next (sh', threads', .init pc' l'))
    : Initializing s sh' threads' pc' l' := by
  obtain ⟨owns, located⟩ := initializing
  cases pc with
  | stdout =>
      simp only [initStep] at stepped
      split at stepped
      · cases stepped
        exact ⟨owns.globals rfl rfl,
          .creating (by decide) located.vplid located.evid located.semid located.thid⟩
      · contradiction
  | starting =>
      simp only [initStep, Choice.onGo_eq_next, StepResult.next.injEq] at stepped
      obtain ⟨_, same⟩ := stepped
      cases same
      refine ⟨owns.quietly ⟨[.initBegins], rfl, ?_⟩ (fun _ => Iff.rfl) (fun _ => .refl _), ?_⟩
      · simp [Event.Inert, Event.createdObject, Event.deletedObject]
      · exact .creating (by decide) located.vplid located.evid located.semid located.thid
  | createVpl =>
      simp only [initStep, createStep_eq_next] at stepped
      obtain ⟨vplid, evid, semid, thid⟩ := located
      simp only [InitPc.rank, Nat.reduceLeDiff, if_true] at vplid evid semid thid
      obtain ⟨id, _, positive, fresh, same⟩ | ⟨code, negative, _, same⟩ := stepped <;> cases same
      · refine ⟨owns.create .vpl rfl ?_ ?_ ?_ (fun _ => .refl _), ?_⟩
        · simp [InitLocals.owned, initKinds, InitLocals.id, positive, vplid, evid, semid, thid]
        · simpa [live, InitLocals.id] using fresh
        · intro object
          obtain ⟨kind, other⟩ := object
          by_cases same : other = id <;> cases kind <;> simp [live, InitLocals.id, same]
        · exact .creating (by decide) positive evid semid thid
      · refine ⟨owns.rename ?_, .cleanup rfl negative⟩
        simp [InitLocals.owned, initKinds, InitLocals.id, vplid, List.filter_cons,
          Int.not_lt.mpr negative.le]
  | createEventFlag =>
      simp only [initStep, createStep_eq_next] at stepped
      obtain ⟨vplid, evid, semid, thid⟩ := located
      simp only [InitPc.rank, Nat.reduceLeDiff, if_true, if_false, forall_const]
        at vplid evid semid thid
      obtain ⟨id, _, positive, fresh, same⟩ | ⟨code, negative, _, same⟩ := stepped <;> cases same
      · refine ⟨owns.create .eventFlag rfl ?_ ?_ ?_ (fun _ => .refl _), ?_⟩
        · simp [InitLocals.owned, initKinds, InitLocals.id, positive, vplid, evid, semid, thid]
        · simpa [live, InitLocals.id] using fresh
        · intro object
          obtain ⟨kind, other⟩ := object
          by_cases same : other = id <;> cases kind <;> simp [live, InitLocals.id, same]
        · exact .creating (by decide) vplid positive semid thid
      · refine ⟨owns.rename ?_, .cleanup rfl negative⟩
        simp [InitLocals.owned, initKinds, InitLocals.id, evid, List.filter_cons,
          Int.not_lt.mpr negative.le]
  | createSema =>
      simp only [initStep, createStep_eq_next] at stepped
      obtain ⟨vplid, evid, semid, thid⟩ := located
      simp only [InitPc.rank, Nat.reduceLeDiff, if_true, if_false, forall_const]
        at vplid evid semid thid
      obtain ⟨id, _, positive, fresh, same⟩ | ⟨code, negative, _, same⟩ := stepped <;> cases same
      · refine ⟨owns.create .sema rfl ?_ ?_ ?_ (fun _ => .refl _), ?_⟩
        · simp [InitLocals.owned, initKinds, InitLocals.id, positive, vplid, evid, semid, thid]
        · simpa [live, InitLocals.id] using fresh
        · intro object
          obtain ⟨kind, other⟩ := object
          by_cases same : other = id <;> cases kind <;> simp [live, InitLocals.id, same]
        · exact .creating (by decide) vplid evid positive thid
      · refine ⟨owns.rename ?_, .cleanup rfl negative⟩
        simp [InitLocals.owned, initKinds, InitLocals.id, semid, List.filter_cons,
          Int.not_lt.mpr negative.le]
  | createThread =>
      simp only [initStep, createStep_eq_next] at stepped
      obtain ⟨vplid, evid, semid, thid⟩ := located
      simp only [InitPc.rank, Nat.reduceLeDiff, if_true, if_false, forall_const]
        at vplid evid semid thid
      obtain ⟨id, _, positive, fresh, same⟩ | ⟨code, negative, _, same⟩ := stepped <;> cases same
      · refine ⟨owns.create .thread rfl ?_ ?_ ?_ ?_, ?_⟩
        · simp [InitLocals.owned, initKinds, InitLocals.id, positive, vplid, evid, semid, thid]
        · simpa [live, InitLocals.id] using fresh
        · intro object
          obtain ⟨kind, other⟩ := object
          by_cases same : other = id <;> cases kind <;> simp [live, InitLocals.id, same]
        · intro other
          by_cases same : other = id <;> simp [same, EventPc.Idles, EventPc.early]
        · exact .creating (by decide) vplid evid semid positive
      · refine ⟨owns.rename ?_, .cleanup rfl negative⟩
        simp [InitLocals.owned, initKinds, InitLocals.id, thid, List.filter_cons,
          Int.not_lt.mpr negative.le]
  | setVplid | setEvid | setSemid | setThid | setDefault | setCount | setHead =>
      simp only [initStep, Choice.onGo_eq_next, StepResult.next.injEq] at stepped
      obtain ⟨_, same⟩ := stepped
      cases same
      exact ⟨owns.globals rfl rfl, located.store rfl (by simp [InitPc.rank])
        (by simp [InitPc.rank]) rfl rfl rfl rfl⟩
  | startThread =>
      simp only [initStep, Choice.onKernel_eq_next] at stepped
      obtain ⟨_, stepped⟩ | ⟨code, negative, _, same⟩ := stepped
      · split at stepped
        · rename_i dormant
          cases stepped
          refine ⟨(owns.quietly ⟨[], by simp, by simp⟩ ?_ ?_).rename rfl, ?_⟩
          · intro object
            obtain ⟨kind, other⟩ := object
            by_cases same : other = l.thid <;> cases kind <;> simp [live, same, dormant]
          · intro other
            by_cases same : other = l.thid <;> simp [same, EventPc.Idles, EventPc.early]
          · obtain ⟨vplid, evid, semid, thid⟩ := located
            constructor <;> simp_all [InitPc.rank, apiEntry]
        · contradiction
      · cases same
        exact ⟨owns.rename rfl, .cleanup rfl negative⟩
  | install api =>
      obtain ⟨ret, rfl, same⟩ | ⟨sh'', api', ran, same⟩ := initStep_install stepped
      · split at same <;> cases same
        · rename_i negative
          exact ⟨owns.rename rfl, .cleanup rfl negative⟩
        · obtain ⟨vplid, evid, semid, thid⟩ := located
          exact ⟨owns, by constructor <;> simp_all [InitPc.rank]⟩
      · cases same
        obtain ⟨vplid, evid, semid, thid, gVplid, gEvid, gSemid, gThid, _, install⟩ := located
        obtain ⟨⟨hook, k⟩, g, history, place⟩ := installStep_cases ran (install api rfl)
        refine ⟨owns.quietly ⟨[], by simp [history], by simp⟩ (fun object => ?_)
          (fun _ => .refl _), ?_⟩
        · obtain ⟨kind, id⟩ := object
          cases kind <;> simp [live, k]
        · rw [g]
          exact ⟨vplid, evid, semid, thid, gVplid, gEvid, gSemid, gThid, by simp [InitPc.rank],
            fun _ same => by cases same; exact place⟩
  | started | stopped => simp [initStep] at stepped
  | terminateThread =>
      simp only [initStep, Choice.onGo_eq_next, StepResult.next.injEq] at stepped
      obtain ⟨_, stepped⟩ := stepped
      have failing := located.failing (by decide)
      split at stepped <;> cases stepped
      · rename_i named
        refine ⟨owns.delete .thread (by simp [InitPc.freed]) rfl named ?_ ?_, .cleanup rfl failing⟩
        · intro object
          obtain ⟨kind, other⟩ := object
          by_cases same : other = l.thid <;> cases kind <;> simp [live, InitLocals.id, same]
        · intro other
          by_cases same : other = l.thid <;> simp [same, EventPc.Idles, EventPc.early]
      · rename_i unnamed
        exact ⟨owns.skip .thread unnamed, .cleanup rfl failing⟩
  | deleteSema =>
      simp only [initStep, Choice.onGo_eq_next, StepResult.next.injEq] at stepped
      obtain ⟨_, stepped⟩ := stepped
      have failing := located.failing (by decide)
      split at stepped <;> cases stepped
      · rename_i named
        refine ⟨owns.delete .sema (by simp [InitPc.freed]) rfl named ?_ (fun _ => .refl _),
          .cleanup rfl failing⟩
        intro object
        obtain ⟨kind, other⟩ := object
        by_cases same : other = l.semid <;> cases kind <;> simp [live, InitLocals.id, same]
      · rename_i unnamed
        exact ⟨owns.skip .sema unnamed, .cleanup rfl failing⟩
  | deleteEventFlag =>
      simp only [initStep, Choice.onGo_eq_next, StepResult.next.injEq] at stepped
      obtain ⟨_, stepped⟩ := stepped
      have failing := located.failing (by decide)
      split at stepped <;> cases stepped
      · rename_i named
        refine ⟨owns.delete .eventFlag (by simp [InitPc.freed]) rfl named ?_ (fun _ => .refl _),
          .cleanup rfl failing⟩
        intro object
        obtain ⟨kind, other⟩ := object
        by_cases same : other = l.evid <;> cases kind <;> simp [live, InitLocals.id, same]
      · rename_i unnamed
        exact ⟨owns.skip .eventFlag unnamed, .cleanup rfl failing⟩
  | deleteVpl =>
      simp only [initStep, Choice.onGo_eq_next, StepResult.next.injEq] at stepped
      obtain ⟨_, stepped⟩ := stepped
      have failing := located.failing (by decide)
      split at stepped <;> cases stepped
      · rename_i named
        refine ⟨owns.delete .vpl (by simp [InitPc.freed]) rfl named ?_ (fun _ => .refl _),
          .cleanup rfl failing⟩
        intro object
        obtain ⟨kind, other⟩ := object
        by_cases same : other = l.vplid <;> cases kind <;> simp [live, InitLocals.id, same]
      · rename_i unnamed
        exact ⟨owns.skip .vpl unnamed, .cleanup rfl failing⟩

/-- No thread of the module is under way: an event thread that exists has at most its `return` left,
and every API call that another thread is in has passed or does not need the semaphore.
-/
structure AtRest (s : State cfg) : Prop where
  threads : ∀ thid, s.threads thid = .absent ∨ (s.threads thid).ended = true
  settled : Settled s

/-- A freshly loaded image is at rest. -/
theorem atRest_of_loaded {s : State cfg} {guard : State cfg → Action cfg → Prop}
    (reach : (machine cfg).Reachable guard s) (loaded : s.loader = .loaded)
    : AtRest s := by
  have kept : s.loader = .loaded → (∀ thid, s.threads thid = .absent) ∧ Settled s := by
    refine System.Reachable.invariant
      (P := fun s : State cfg =>
        s.loader = .loaded → (∀ thid, s.threads thid = .absent) ∧ Settled s) reach ?_ ?_
    · refine fun _ => ⟨fun _ => rfl, ?_⟩
      intro thread call api engaged
      cases thread <;> contradiction
    · intro s action t reach before _ stepped loaded
      have unstarted : s.loader = .loaded → s.sh.g.gState ≠ .started := fun place started => by
        simpa [place, LoaderPc.isStarted] using isStarted_of_started reach started
      cases State.step_cases stepped with
      | crash | kprintf | overRegister =>
          obtain ⟨absent, settled⟩ := before loaded
          exact ⟨absent, fun thread call api engaged =>
            settled thread call api (by cases thread <;> exact engaged)⟩
      | @event thid choice sh' pc ran =>
          rw [(before loaded).1 thid] at ran
          contradiction
      | @client n choice sh' pc ran =>
          obtain ⟨absent, settled⟩ := before loaded
          exact ⟨absent, settled.update (inApi_client s sh' n pc)
            ((clientStep_effect ran).callMove.free (unstarted loaded) (settled (.client n)))⟩
      | @loader choice sh' threads' loader' ran =>
          subst loaded
          rcases loaderStep_cases ran with ⟨ip, l, _, ran⟩ | ⟨entered, _⟩ | ⟨effect, _⟩
          · exact absurd rfl (initStep_loader ran).2
          · contradiction
          · have inside := effect.inSession
            contradiction
  obtain ⟨absent, settled⟩ := kept loaded
  exact ⟨fun thid => Or.inl (absent thid), settled⟩

/-- Outside the semaphore calls an API function notes nothing while the module is not started. -/
theorem ApiEffect.silent {thread : ThreadRef} {sh sh' : Shared cfg} {pc pc' : ApiPc}
    (effect : ApiEffect thread sh pc sh' pc') (free : pc.free = true)
    (state : sh.g.gState ≠ .started)
    : sh'.history = sh.history := by
  obtain ⟨noWait, unlocked⟩ := ApiPc.free_iff.mp free
  cases effect with
  | acquire waits => simp [waits] at noWait
  | work locked => simp [locked] at unlocked
  | release => simp [ApiPc.free] at free
  | announce printed =>
      rcases printed with rfl | ⟨during, printed⟩
      · rfl
      · rw [kprintf_unstarted state printed]
  | refuse | dipsw | hook => rfl

/-- A client notes its calls only, and leaves the objects alone. -/
theorem Owns.client {s : State cfg} {n : Nat} {sh sh' : Shared cfg} {threads : Threads}
    {l : InitLocals} {freed : List ObjectKind} {pc pc' : ClientPc}
    (owns : Owns s sh threads l freed) (effect : ClientEffect n sh pc sh' pc')
    (free : ∀ call api, pc = some (call, api) → api.free = true)
    (state : sh.g.gState ≠ .started)
    : Owns s sh' threads l freed := by
  cases effect with
  | enter =>
      exact owns.quietly ⟨[_], rfl, List.forall_mem_singleton.mpr ⟨trivial, rfl, rfl⟩⟩
        (fun _ => Iff.rfl) (fun _ => .refl _)
  | leave =>
      exact owns.quietly ⟨[_], rfl, List.forall_mem_singleton.mpr ⟨trivial, rfl, rfl⟩⟩
        (fun _ => Iff.rfl) (fun _ => .refl _)
  | run ran =>
      have effect := apiStep_effect ran
      have quiet := (effect.quiet (free _ _ rfl) state).1
      refine owns.quietly ⟨[], by simp [effect.silent (free _ _ rfl) state], by simp⟩
        (fun object => ?_) (fun _ => .refl _)
      obtain ⟨kind, id⟩ := object
      cases kind <;> simp [LibKprintf.live, quiet.vpls, quiet.evflags, quiet.semas]

/-- While init runs in a module at rest, a thread polls or has nothing left to do but to return. -/
theorem Owns.idle {s : State cfg} {sh : Shared cfg} {threads : Threads} {l : InitLocals}
    {freed : List ObjectKind} (owns : Owns s sh threads l freed) (rest : AtRest s) (thid : Uid)
    : (threads thid).early = true ∨ (threads thid).ended = true := by
  rcases owns.idles thid with early | still | ⟨_, ended⟩
  · exact Or.inl early
  · rw [still]
    exact (rest.threads thid).imp_left fun absent => by rw [absent]; rfl
  · exact Or.inr ended

/-- Such a thread changes no shared state, and stays one. -/
theorem idle_step {thid : Uid} {sh sh' : Shared cfg} {pc pc' : EventPc} {choice : Choice cfg}
    (idle : pc.early = true ∨ pc.ended = true)
    (stepped : eventStep thid sh pc choice = .next (sh', pc')) (state : sh.g.gState ≠ .started)
    : sh' = sh ∧ pc ≠ .absent ∧ pc' ≠ .absent ∧ pc.Idles pc' := by
  rcases idle with early | ended
  · obtain ⟨same, polls, polls'⟩ := eventStep_early stepped early state
    refine ⟨same, ?_, ?_, Or.inl ?_⟩
    · rcases polls with rfl | rfl <;> simp
    · rcases polls' with rfl | rfl <;> simp
    · rcases polls' with rfl | rfl <;> rfl
  · obtain ⟨rfl, same, rfl⟩ := (eventStep_effect stepped).idle ended
    exact ⟨same, by simp, by simp, Or.inr (Or.inr ⟨rfl, rfl⟩)⟩

/-- What holds of the whole state while init runs. -/
def InitializingState (s v : State cfg) : Prop :=
  ∀ pc l, v.loader = .init pc l → Initializing s v.sh v.threads pc l

/-- Every step of the whole module keeps it: the event thread polls, the clients and Kprintf
find the module not started.
-/
theorem InitializingState.step {s v w : State cfg} {action : Action cfg}
    {before : Vector RegHandler cfg.kprintfMaxHandlers} (rest : AtRest s)
    (restarting : RestartingState before v) (initializing : InitializingState s v)
    (noStart : NoStart v action) (stepped : v.step action = some w)
    : InitializingState s w := by
  intro pc' l' place'
  cases State.step_cases stepped with
  | crash => exact initializing pc' l' place'
  | overRegister =>
      obtain ⟨owns, located⟩ := initializing pc' l' place'
      refine ⟨owns.quietly ⟨[], by simp, by simp⟩ ?_ (fun _ => .refl _), located⟩
      intro ⟨kind, id⟩
      cases kind <;> rfl
  | kprintf printed =>
      rw [kprintf_unstarted (restarting pc' l' place').1.state printed]
      exact initializing pc' l' place'
  | @event thid choice sh' pc ran =>
      obtain ⟨owns, located⟩ := initializing pc' l' place'
      obtain ⟨rfl, present, present', idles⟩ :=
        idle_step (owns.idle rest thid) ran (restarting pc' l' place').1.state
      refine ⟨owns.quietly ⟨[], by simp, by simp⟩ ?_ ?_, located⟩
      · intro ⟨kind, id⟩
        by_cases same : id = thid
        · subst same
          cases kind <;> simp [live, present, present']
        · cases kind <;> simp [live, same]
      · intro other
        by_cases same : other = thid
        · subst same
          simpa using idles
        · simpa [same] using .refl _
  | @client n choice sh' pc ran =>
      obtain ⟨owns, located⟩ := initializing pc' l' place'
      obtain ⟨⟨state, _⟩, settled⟩ := restarting pc' l' place'
      have effect := clientStep_effect ran
      refine ⟨owns.client effect (settled (.client n)) state, ?_⟩
      rw [show _ = v.sh.g from effect.unstarted state (settled (.client n))]
      exact located
  | @loader choice sh' threads' loader' ran =>
      subst place'
      obtain ⟨ip, l, place, initRan⟩ := init_of_noStart ran noStart
      exact (initializing ip l place).init initRan

/-- It holds where init has just been entered. -/
theorem InitializingState.start {s first : State cfg}
    (begun : s.step (.loader .start) = some first)
    : InitializingState s first := by
  obtain ⟨rfl, _⟩ := start_cases begun
  rintro _ _ ⟨⟩
  refine ⟨⟨⟨[], by simp, rfl, rfl, by simp⟩, ?_, ?_, fun _ => .refl _⟩, ?_⟩
  · simp [InitLocals.owned, initKinds, InitLocals.id]
  · intro object
    simp [State.Live, InitLocals.owned, initKinds, InitLocals.id]
  · constructor <;> simp [InitPc.rank]

/-- It holds for as long as _start is not called again. -/
theorem InitializingState.run {s first v : State cfg} {guard : State cfg → Action cfg → Prop}
    (reach : (machine cfg).Reachable guard s) (rest : AtRest s)
    (begun : s.step (.loader .start) = some first) (path : (machine cfg).Path NoStart first v)
    : RestartingState s.sh.g.gHandlers v ∧ InitializingState s v :=
  path.preserves (P := fun v => RestartingState s.sh.g.gHandlers v ∧ InitializingState s v)
    ⟨.start reach rest.settled begun, .start begun⟩
    (fun _ _ _ ⟨restarting, initializing⟩ noStart stepped =>
      ⟨restarting.step noStart stepped, initializing.step rest restarting noStart stepped⟩)

end LibKprintf
