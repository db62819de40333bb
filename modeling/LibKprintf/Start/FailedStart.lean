import LibKprintf.Start.Initializing

/-! A start of the module that fails leaves nothing behind, and one that succeeds leaves
everything in place: every failing kernel call and every interleaving with other threads.
-/

namespace LibKprintf

open Foundation

variable {cfg : Config}

/-- The objects that a call of the registered Kprintf handler may name to the kernel. -/
def kprintfUses (sh : Shared cfg) : List KernelObject :=
  if sh.k.hook = .kprintfHandler ∧ sh.g.gState = .started then
    [(.vpl, sh.g.gVplid), (.eventFlag, sh.g.gEvid)]
  else
    []

/-- The objects that the next statement of an API function names to the kernel. -/
def ApiPc.uses (sh : Shared cfg) : ApiPc → List KernelObject
  | .regWait _ semid | .unregWait _ semid => [(.sema, semid)]
  | .signal .. => [(.sema, sh.g.gSemid)]
  | .announce => kprintfUses sh
  | _ => []

/-- The objects that the next statement of flush_messages names to the kernel. -/
def FlushPc.uses (sh : Shared cfg) : FlushPc → List KernelObject
  | .callback _ _ _ (some (_, api)) => api.uses sh
  | .remove .. => [(.vpl, sh.g.gVplid)]
  | _ => []

/-- The objects that the next statement of an event thread names to the kernel. -/
def EventPc.uses (sh : Shared cfg) : EventPc → List KernelObject
  | .register api => api.uses sh
  | .waitFlag evid => [(.eventFlag, evid)]
  | .waitSema _ semid => [(.sema, semid)]
  | .flush _ pc => pc.uses sh
  | .signal _ => [(.sema, sh.g.gSemid)]
  | .resend _ | .stopOk => [(.eventFlag, sh.g.gEvid)]
  | _ => []

/-- The objects that the next statement of init names to the kernel. -/
def InitPc.uses (sh : Shared cfg) (l : InitLocals) : InitPc → List KernelObject
  | .startThread => [(.thread, l.thid)]
  | .install api => api.uses sh
  | .terminateThread => l.owned [.thread]
  | .deleteSema => l.owned [.sema]
  | .deleteEventFlag => l.owned [.eventFlag]
  | .deleteVpl => l.owned [.vpl]
  | _ => []

/-- The objects that the next statement of the module manager's thread names to the kernel. -/
def LoaderPc.uses (sh : Shared cfg) : LoaderPc → List KernelObject
  | .init pc l => pc.uses sh l
  | .stop .announce => kprintfUses sh
  | .stop .post => [(.eventFlag, sh.g.gEvid)]
  | .stop (.waitStopOk evid) => [(.eventFlag, evid)]
  | _ => []

/-- The existing objects that an action names to the kernel. -/
def State.uses (s : State cfg) : Action cfg → List KernelObject
  | .kprintf _ => kprintfUses s.sh
  | .event thid _ => (s.threads thid).uses s.sh
  | .client n _ => ((s.clients n).map fun (_, api) => api.uses s.sh).getD []
  | .loader _ => s.loader.uses s.sh
  | .overRegister _ => []

/-- init returns: from `u` to `t` it takes its last step, with the result `ret`. -/
def InitReturns (u t : State cfg) (ret : Int) : Prop :=
  ∃ pc l choice, u.loader = .init pc l ∧ u.step (.loader choice) = some t
    ∧ t.sh.history = u.sh.history ++ [.initReturns ret]

/-- Past the registration of the hook init succeeds. -/
def InitPc.hooked : InitPc → Prop
  | .install (.done ret) => 0 ≤ ret
  | .started => True
  | _ => False

/-- init is past the registration of the hook, or has returned. -/
def HookedState (v : State cfg) : Prop := ∀ pc l, v.loader = .init pc l → pc.hooked

/-- There is no way back to before the registration. -/
theorem HookedState.step {v w : State cfg} {action : Action cfg} (hooked : HookedState v)
    (noStart : NoStart v action) (stepped : v.step action = some w)
    : HookedState w := by
  intro pc' l' place'
  cases State.step_cases stepped with
  | crash | overRegister | kprintf | event | client => exact hooked pc' l' place'
  | @loader choice sh' threads' loader' ran =>
      subst place'
      obtain ⟨ip, l, place, initRan⟩ := init_of_noStart ran noStart
      have past := hooked ip l place
      cases ip with
      | install api =>
          cases api with
          | done ret =>
              simp only [initStep, Choice.onGo_eq_next, StepResult.next.injEq] at initRan
              obtain ⟨_, same⟩ := initRan
              rw [if_neg (not_lt.mpr past)] at same
              cases same
              trivial
          | _ => contradiction
      | started => simp [initStep] at initRan
      | _ => contradiction

/-- The step with which init returns is a step of init. -/
theorem InitReturns.cases {u t : State cfg} {ret : Int} (returns : InitReturns u t ret)
    : ∃ pc l choice, u.loader = .init pc l
        ∧ initStep u.sh u.threads pc l choice = .next (t.sh, t.threads, t.loader)
        ∧ t.sh.history = u.sh.history ++ [.initReturns ret] := by
  obtain ⟨pc, l, choice, place, stepped, returned⟩ := returns
  cases State.step_cases stepped with
  | crash => simp at returned
  | loader ran =>
      rw [place] at ran
      exact ⟨pc, l, choice, place, ran, returned⟩

end LibKprintf
