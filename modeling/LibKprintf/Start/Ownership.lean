import LibKprintf.Handlers.Restart

/-! The kernel objects that init creates: which of them exist at each of its program points,
whatever the other threads do meanwhile, and which threads make a kernel call on an object.
-/

namespace LibKprintf

open Foundation

variable {cfg : Config}

/-- A kernel object: its kind, and its id among the objects of that kind. -/
abbrev KernelObject := ObjectKind × Uid

/-- The object that an event says was created. -/
def Event.createdObject : Event → Option KernelObject
  | .created kind id => some (kind, id)
  | _ => none

/-- The object that an event says was deleted. -/
def Event.deletedObject : Event → Option KernelObject
  | .deleted kind id => some (kind, id)
  | _ => none

/-- The events that say nothing about handlers, messages and callbacks. -/
def Event.Inert : Event → Prop
  | .created .. | .deleted .. | .initBegins | .initReturns _ | .called .. | .answered .. => True
  | _ => False

/-- Whether a kernel object exists. -/
def live (k : Kernel) (threads : Threads) : KernelObject → Prop
  | (.vpl, id) => k.vpls id = true
  | (.eventFlag, id) => (k.evflags id).isSome
  | (.sema, id) => (k.semas id).isSome
  | (.thread, id) => threads id ≠ .absent

/-- Whether a kernel object exists in a state of the module. -/
def State.Live (s : State cfg) : KernelObject → Prop := live s.sh.k s.threads

/-- The local variable of init for the object of a kind. -/
def InitLocals.id (l : InitLocals) : ObjectKind → Uid
  | .vpl => l.vplid
  | .eventFlag => l.evid
  | .sema => l.semid
  | .thread => l.thid

/-- The kinds of objects in the order in which init creates them. -/
def initKinds : List ObjectKind := [.vpl, .eventFlag, .sema, .thread]

/-- The objects of the given kinds that the local variables name. -/
def InitLocals.owned (l : InitLocals) (kinds : List ObjectKind) : List KernelObject :=
  (kinds.map fun kind => (kind, l.id kind)).filter fun object => 0 < object.2

/-- What the cleanup is done with before each of its statements. -/
def InitPc.freed : InitPc → List ObjectKind
  | .deleteSema => [.thread]
  | .deleteEventFlag => [.thread, .sema]
  | .deleteVpl => [.thread, .sema, .eventFlag]
  | .stopped => [.thread, .sema, .eventFlag, .vpl]
  | _ => []

/-- An object is owned if it is the one that the local variable of its kind names. -/
theorem InitLocals.mem_owned {l : InitLocals} {kinds : List ObjectKind} {object : KernelObject}
    : object ∈ l.owned kinds
      ↔ object.1 ∈ kinds ∧ l.id object.1 = object.2 ∧ 0 < object.2 := by
  obtain ⟨kind, id⟩ := object
  simp only [owned, List.mem_filter, List.mem_map, Prod.mk.injEq, decide_eq_true_eq]
  constructor
  · rintro ⟨⟨kind', member, rfl, rfl⟩, positive⟩
    exact ⟨member, rfl, positive⟩
  · rintro ⟨member, rfl, positive⟩
    exact ⟨⟨kind, member, rfl, rfl⟩, positive⟩

/-- One more kind adds the object of that kind, if there is one. -/
theorem InitLocals.owned_concat (l : InitLocals) (kinds : List ObjectKind) (kind : ObjectKind)
    : l.owned (kinds ++ [kind])
      = l.owned kinds ++ if 0 < l.id kind then [(kind, l.id kind)] else [] := by
  simp [owned, List.filter_cons]

/-- What a thread comes to while init runs: it polls, it stays where it is, or it only returns. -/
def EventPc.Idles (before after : EventPc) : Prop :=
  after.early = true ∨ after = before ∨ before.ended = true ∧ after.ended = true

/-- A thread may stay where it is. -/
theorem EventPc.Idles.refl (pc : EventPc) : pc.Idles pc := Or.inr (Or.inl rfl)

/-- A thread that polls is not past its last statement, so the two never follow each other. -/
theorem EventPc.Idles.trans {before middle after : EventPc} (first : before.Idles middle)
    (second : middle.Idles after)
    : before.Idles after := by
  rcases second with polls | rfl | ⟨ended, ends⟩
  · exact Or.inl polls
  · exact first
  · rcases first with polls | rfl | ⟨before, _⟩
    · cases middle <;> contradiction
    · exact Or.inr (Or.inr ⟨ended, ends⟩)
    · exact Or.inr (Or.inr ⟨before, ends⟩)

/-- The objects of init since the state `s`: the local variables name all it has created,
those of the kinds in `freed` are deleted again, and nothing else has been.
-/
structure Owns (s : State cfg) (sh : Shared cfg) (threads : Threads) (l : InitLocals)
    (freed : List ObjectKind)
    : Prop where
  history
    : ∃ late, sh.history = s.sh.history ++ late
        ∧ late.filterMap Event.createdObject = l.owned initKinds
        ∧ late.filterMap Event.deletedObject = l.owned freed
        ∧ ∀ event ∈ late, event.Inert
  new : ∀ object ∈ l.owned initKinds, ¬ s.Live object
  live
    : ∀ object, live sh.k threads object
        ↔ s.Live object ∨ object ∈ l.owned initKinds ∧ object.1 ∉ freed
  idles : ∀ thid, (s.threads thid).Idles (threads thid)

/-- Events without a creation or a deletion, and no change of what exists, keep ownership. -/
theorem Owns.quietly {s : State cfg} {sh sh' : Shared cfg} {threads threads' : Threads}
    {l : InitLocals} {freed : List ObjectKind} (owns : Owns s sh threads l freed)
    (events : ∃ events, sh'.history = sh.history ++ events ∧ ∀ event ∈ events,
      event.Inert ∧ event.createdObject = none ∧ event.deletedObject = none)
    (same : ∀ object, LibKprintf.live sh'.k threads' object
      ↔ LibKprintf.live sh.k threads object)
    (idles : ∀ thid, (threads thid).Idles (threads' thid))
    : Owns s sh' threads' l freed where
  history := by
    obtain ⟨late, since, created, deleted, inert⟩ := owns.history
    obtain ⟨events, appended, silent⟩ := events
    refine ⟨late ++ events, by rw [appended, since, List.append_assoc], ?_, ?_, ?_⟩
    · rw [List.filterMap_append, created, List.filterMap_eq_nil_iff.mpr fun event member =>
        (silent event member).2.1, List.append_nil]
    · rw [List.filterMap_append, deleted, List.filterMap_eq_nil_iff.mpr fun event member =>
        (silent event member).2.2, List.append_nil]
    · intro event member
      rcases List.mem_append.mp member with before | now
      · exact inert event before
      · exact (silent event now).1
  new := owns.new
  live := fun object => (same object).trans (owns.live object)
  idles thid := (owns.idles thid).trans (idles thid)

/-- A change of the globals alone keeps ownership. -/
theorem Owns.globals {s : State cfg} {sh sh' : Shared cfg} {threads : Threads} {l : InitLocals}
    {freed : List ObjectKind} (owns : Owns s sh threads l freed) (k : sh'.k = sh.k)
    (history : sh'.history = sh.history)
    : Owns s sh' threads l freed :=
  owns.quietly ⟨[], by simp [history], by simp⟩ (fun _ => by rw [k]) (fun _ => .refl _)

/-- Other values of the local variables own the same objects, if they name the same. -/
theorem Owns.rename {s : State cfg} {sh : Shared cfg} {threads : Threads} {l l' : InitLocals}
    (owns : Owns s sh threads l []) (owned : l'.owned initKinds = l.owned initKinds)
    : Owns s sh threads l' [] where
  history := by
    obtain ⟨late, since, created, deleted, inert⟩ := owns.history
    exact ⟨late, since, created.trans owned.symm, deleted, inert⟩
  new := by
    rw [owned]
    exact owns.new
  live := by
    rw [owned]
    exact owns.live
  idles := owns.idles

/-- A creating call adds the object that the local variable then names. -/
theorem Owns.create {s : State cfg} {sh sh' : Shared cfg} {threads threads' : Threads}
    {l l' : InitLocals} (owns : Owns s sh threads l []) (kind : ObjectKind)
    (noted : sh'.history = sh.history ++ [.created kind (l'.id kind)])
    (owned : l'.owned initKinds = l.owned initKinds ++ [(kind, l'.id kind)])
    (fresh : ¬ LibKprintf.live sh.k threads (kind, l'.id kind))
    (added : ∀ object, LibKprintf.live sh'.k threads' object
      ↔ LibKprintf.live sh.k threads object ∨ object = (kind, l'.id kind))
    (idles : ∀ thid, (threads thid).Idles (threads' thid))
    : Owns s sh' threads' l' [] where
  history := by
    obtain ⟨late, since, created, deleted, inert⟩ := owns.history
    refine ⟨late ++ [.created kind (l'.id kind)], by rw [noted, since, List.append_assoc], ?_, ?_,
      ?_⟩
    · rw [List.filterMap_append, created, owned]
      rfl
    · rw [List.filterMap_append, deleted]
      rfl
    · intro event member
      rcases List.mem_append.mp member with before | now
      · exact inert event before
      · rw [List.mem_singleton.mp now]
        trivial
  new := by
    intro object member
    rw [owned] at member
    rcases List.mem_append.mp member with before | now
    · exact owns.new object before
    · rw [List.mem_singleton.mp now]
      exact fun existed => fresh ((owns.live _).mpr (Or.inl existed))
  live := by
    intro object
    rw [added object, owns.live object, owned]
    simp [or_assoc]
  idles thid := (owns.idles thid).trans (idles thid)

/-- A deleting call takes back the object that the local variable names, if it names one. -/
theorem Owns.delete {s : State cfg} {sh sh' : Shared cfg} {threads threads' : Threads}
    {l : InitLocals} {freed : List ObjectKind} (owns : Owns s sh threads l freed)
    (kind : ObjectKind) (kept : kind ∉ freed)
    (noted : sh'.history = sh.history ++ [.deleted kind (l.id kind)]) (named : 0 < l.id kind)
    (removed : ∀ object, LibKprintf.live sh'.k threads' object
      ↔ LibKprintf.live sh.k threads object ∧ object ≠ (kind, l.id kind))
    (idles : ∀ thid, (threads thid).Idles (threads' thid))
    : Owns s sh' threads' l (freed ++ [kind]) where
  history := by
    obtain ⟨late, since, created, deleted, inert⟩ := owns.history
    refine ⟨late ++ [.deleted kind (l.id kind)], by rw [noted, since, List.append_assoc], ?_, ?_,
      ?_⟩
    · rw [List.filterMap_append, created]
      exact List.append_nil _
    · rw [List.filterMap_append, deleted, l.owned_concat, if_pos named]
      rfl
    · intro event member
      rcases List.mem_append.mp member with before | now
      · exact inert event before
      · rw [List.mem_singleton.mp now]
        trivial
  new := owns.new
  live := by
    intro object
    have own : (kind, l.id kind) ∈ l.owned initKinds :=
      InitLocals.mem_owned.mpr ⟨by cases kind <;> simp [initKinds], rfl, named⟩
    rw [removed object, owns.live object]
    constructor
    · rintro ⟨before | ⟨member, still⟩, other⟩
      · exact Or.inl before
      · refine Or.inr ⟨member, fun gone => ?_⟩
        rcases List.mem_append.mp gone with earlier | now
        · exact still earlier
        · -- The only object of this kind is the one just deleted.
          obtain ⟨_, named', _⟩ := InitLocals.mem_owned.mp member
          rw [List.mem_singleton.mp now] at named'
          exact other (Prod.ext (List.mem_singleton.mp now) named'.symm)
    · rintro (before | ⟨member, still⟩)
      · refine ⟨Or.inl before, ?_⟩
        rintro rfl
        exact owns.new _ own before
      · refine ⟨Or.inr ⟨member, fun earlier => still (List.mem_append_left _ earlier)⟩, ?_⟩
        rintro rfl
        exact still (List.mem_append_right _ (List.mem_singleton.mpr rfl))
  idles thid := (owns.idles thid).trans (idles thid)

/-- Where the local variable names no object there is nothing to delete. -/
theorem Owns.skip {s : State cfg} {sh : Shared cfg} {threads : Threads} {l : InitLocals}
    {freed : List ObjectKind} (owns : Owns s sh threads l freed) (kind : ObjectKind)
    (unnamed : ¬ 0 < l.id kind)
    : Owns s sh threads l (freed ++ [kind]) where
  history := by
    obtain ⟨late, since, created, deleted, inert⟩ := owns.history
    refine ⟨late, since, created, ?_, inert⟩
    rw [deleted, l.owned_concat, if_neg unnamed, List.append_nil]
  new := owns.new
  live := by
    intro object
    rw [owns.live object]
    refine or_congr_right (and_congr_right fun member => not_congr ?_)
    rw [List.mem_append, List.mem_singleton]
    refine ⟨Or.inl, fun gone => gone.resolve_right fun same => ?_⟩
    obtain ⟨_, named, positive⟩ := InitLocals.mem_owned.mp member
    rw [same] at named
    exact unnamed (named ▸ positive)
  idles := owns.idles

end LibKprintf
