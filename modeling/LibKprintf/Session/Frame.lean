import LibKprintf.Session.Effects

/-! What no step of an event thread, a client or a Kprintf call ever changes: the module
state, the object ids, and which kernel objects exist. Only the module manager does.
-/

namespace LibKprintf

variable {cfg : Config}

/-- The later shared state has the same module state, object ids and kernel objects. -/
structure Shared.Frame (sh sh' : Shared cfg) : Prop where
  gState : sh'.g.gState = sh.g.gState
  gVplid : sh'.g.gVplid = sh.g.gVplid
  gEvid : sh'.g.gEvid = sh.g.gEvid
  gSemid : sh'.g.gSemid = sh.g.gSemid
  gThid : sh'.g.gThid = sh.g.gThid
  vpls : sh'.k.vpls = sh.k.vpls
  evflags : ∀ id, (sh'.k.evflags id).isSome = (sh.k.evflags id).isSome
  semas : ∀ id, (sh'.k.semas id).isSome = (sh.k.semas id).isSome

namespace Shared

variable {sh sh' sh'' : Shared cfg}

/-- Nothing changed. -/
theorem Frame.refl (sh : Shared cfg) : sh.Frame sh :=
  ⟨rfl, rfl, rfl, rfl, rfl, rfl, fun _ => rfl, fun _ => rfl⟩

/-- Frames compose along successive changes. -/
theorem Frame.trans (first : sh.Frame sh') (second : sh'.Frame sh'') : sh.Frame sh'' where
  gState := second.gState.trans first.gState
  gVplid := second.gVplid.trans first.gVplid
  gEvid := second.gEvid.trans first.gEvid
  gSemid := second.gSemid.trans first.gSemid
  gThid := second.gThid.trans first.gThid
  vpls := second.vpls.trans first.vpls
  evflags := fun id => (second.evflags id).trans (first.evflags id)
  semas := fun id => (second.semas id).trans (first.semas id)

/-- A change that leaves the state, the ids and the kernel objects alone keeps the frame. -/
theorem Frame.of_same
    (ids
      : (sh'.g.gState, sh'.g.gVplid, sh'.g.gEvid, sh'.g.gSemid, sh'.g.gThid)
        = (sh.g.gState, sh.g.gVplid, sh.g.gEvid, sh.g.gSemid, sh.g.gThid))
    (objects : (sh'.k.vpls, sh'.k.evflags, sh'.k.semas) = (sh.k.vpls, sh.k.evflags, sh.k.semas))
    : sh.Frame sh' := by
  simp only [Prod.mk.injEq] at ids objects
  obtain ⟨gState, gVplid, gEvid, gSemid, gThid⟩ := ids
  obtain ⟨vpls, evflags, semas⟩ := objects
  exact ⟨gState, gVplid, gEvid, gSemid, gThid, vpls, by simp [evflags], by simp [semas]⟩

/-- Setting an event flag creates and deletes no flag. -/
theorem frame_setEventFlag (sh : Shared cfg) (bits : U32) : sh.Frame (sh.setEventFlag bits) := by
  unfold setEventFlag Kernel.sceKernelSetEventFlag
  cases flag : sh.k.evflags sh.g.gEvid with
  | none => exact Frame.refl sh
  | some old =>
      refine { Frame.refl sh with evflags := fun id => ?_ }
      by_cases same : id = sh.g.gEvid
      · subst same
        simp [flag]
      · simp [same]

/-- Taking an event flag creates and deletes no flag. -/
theorem frame_takeEventFlag {evid : Uid} {pattern ev : U32} {k : Kernel}
    (took : sh.k.takeEventFlag evid pattern = some (k, ev))
    : sh.Frame { sh with k := k } := by
  unfold Kernel.takeEventFlag at took
  split at took
  · contradiction
  · rename_i bits flag
    split at took
    · contradiction
    · cases took
      refine { Frame.refl sh with evflags := fun id => ?_ }
      by_cases same : id = evid
      · subst same
        simp [flag]
      · simp [same]

/-- Taking a semaphore creates and deletes none. -/
theorem frame_takeSema {semid : Uid} {thread : ThreadRef} {k : Kernel}
    (took : sh.k.takeSema semid thread = some k)
    : sh.Frame { sh with k := k } := by
  unfold Kernel.takeSema at took
  split at took
  · rename_i count max holder sema
    cases took
    refine { Frame.refl sh with semas := fun id => ?_ }
    by_cases same : id = semid
    · subst same
      simp [sema]
    · simp [same]
  · contradiction

/-- Signalling a semaphore creates and deletes none. -/
theorem frame_signalSema (sh : Shared cfg) (semid : Uid)
    : sh.Frame { sh with k := (sh.k.sceKernelSignalSema semid).1 } := by
  unfold Kernel.sceKernelSignalSema
  cases sema : sh.k.semas semid with
  | none => exact Frame.refl sh
  | some old =>
      by_cases room : old.count < old.max
      · simp only [room, if_true]
        refine { Frame.refl sh with semas := fun id => ?_ }
        by_cases same : id = semid
        · subst same
          simp [sema]
        · simp [same]
      · simpa [room] using Frame.refl sh

end Shared

open Shared

/-- A Kprintf call touches the queue and a flag only. -/
theorem kprintf_frame {sh sh' : Shared cfg} {call} (printed : kprintf sh call = .next sh')
    : sh.Frame sh' := by
  obtain rfl | ⟨_, head, mem, stamp, body, rfl⟩ := kprintf_effect printed
  · exact Frame.refl _
  · have queued : sh.Frame (sh.withQueue head mem) := .of_same rfl rfl
    exact queued.trans ((frame_setEventFlag _ evFlush).trans (.of_same rfl rfl))

/-- API functions keep the frame, by cases of the effect. -/
theorem ApiEffect.frame {thread : ThreadRef} {sh sh' : Shared cfg} {pc pc' : ApiPc}
    (effect : ApiEffect thread sh pc sh' pc')
    : sh.Frame sh' := by
  cases effect with
  | acquire _ took _ => exact frame_takeSema took
  | release => exact frame_signalSema sh _
  | announce printed =>
      rcases printed with rfl | ⟨during, printed⟩
      · exact Frame.refl _
      · exact kprintf_frame printed
  | refuse | work | dipsw | hook => exact .of_same rfl rfl

/-- A running API call keeps the frame, also when it returns. -/
theorem apiCallStep_frame {thread : ThreadRef} {call : ApiCall} {sh sh' : Shared cfg}
    {api : ApiPc} {api' : Option ApiPc} {choice : Choice cfg}
    (stepped : apiCallStep thread call sh api choice = .next (sh', api'))
    : sh.Frame sh' := by
  obtain ⟨ret, rfl, rfl, rfl⟩ | ⟨pc', inner, rfl⟩ := apiCallStep_cases stepped
  · exact .of_same rfl rfl
  · exact (apiStep_effect inner).frame

/-- flush_messages keeps the frame, by cases of the effect. -/
theorem FlushEffect.frame {thid : Uid} {sh sh' : Shared cfg} {pc : FlushPc}
    {pc' : Option FlushPc} (effect : FlushEffect thid sh pc sh' pc')
    : sh.Frame sh' := by
  cases effect with
  | nested stepped => exact apiCallStep_frame stepped
  | read | observe | callbackReturns | callbackCalls | remove => exact .of_same rfl rfl

/-- The event thread keeps the frame, by cases of the effect. -/
theorem EventEffect.frame {thid : Uid} {sh sh' : Shared cfg} {pc pc' : EventPc}
    (effect : EventEffect thid sh pc sh' pc')
    : sh.Frame sh' := by
  cases effect with
  | move | callRegister => exact .of_same rfl rfl
  | register stepped => exact apiCallStep_frame stepped
  | wake took => exact frame_takeEventFlag took
  | acquire took => exact frame_takeSema took
  | flush stepped => exact (flushStep_effect stepped).frame
  | release => exact frame_signalSema sh _
  | resend => exact frame_setEventFlag sh _
  | stopOk => exact (frame_setEventFlag sh evStopOk).trans (.of_same rfl rfl)

/-- Clients keep the frame, by cases of the effect. -/
theorem ClientEffect.frame {n : Nat} {sh sh' : Shared cfg} {pc pc' : ClientPc}
    (effect : ClientEffect n sh pc sh' pc')
    : sh.Frame sh' := by
  cases effect with
  | enter | leave => exact .of_same rfl rfl
  | run stepped => exact (apiStep_effect stepped).frame

end LibKprintf
