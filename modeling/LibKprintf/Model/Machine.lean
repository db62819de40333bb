import LibKprintf.Foundation.System
import LibKprintf.Model.Startup

/-! The whole module at run time: the module manager's thread, the event threads, any
number of client threads, and Kprintf calls from anywhere, interleaved step by step.
-/

namespace LibKprintf

open Foundation

variable {cfg : Config}

/-- A client thread: outside the module, or inside an exported function. -/
abbrev ClientPc := Option (ApiCall × ApiPc)

/-- A state of the module. It has crashed once a thread has touched memory it must not. -/
structure State (cfg : Config) where
  sh : Shared cfg
  threads : Threads
  clients : Nat → ClientPc
  loader : LoaderPc
  crashed : Bool

/-- Who takes the next step, and what the environment decides about it. -/
inductive Action (cfg : Config)
  /-- Kprintf or sceKernelPrintf is called, by any thread or interrupt handler. -/
  | kprintf (call : KprintfCall cfg)
  | event (thid : Uid) (choice : Choice cfg)
  | client (n : Nat) (choice : Choice cfg)
  | loader (choice : Choice cfg)
  /-- Another module registers its own Kprintf handler. -/
  | overRegister (entry : Nat)

/-- One step of a client thread. -/
def clientStep (n : Nat) (sh : Shared cfg) (pc : ClientPc) (choice : Choice cfg)
    : StepResult (Shared cfg × ClientPc) :=
  match pc with
  | none =>
      match choice with
      | .call call => .next (sh.note (.called (.client n) call), some (call, apiEntry sh call))
      | _ => .disabled
  | some (call, api) =>
      (apiCallStep (.client n) call sh api choice).map
        (fun (sh, api) => (sh, api.map (call, ·)))

/-- What a thread's step makes of the whole state. -/
def State.apply (s : State cfg) {α : Type} (result : StepResult α) (update : α → State cfg)
    : Option (State cfg) :=
  match result with
  | .disabled => none
  | .fault => some { s with crashed := true }
  | .next a => some (update a)

/-- One step of the module. Nothing runs after a crash. -/
def State.step (s : State cfg) (action : Action cfg) : Option (State cfg) :=
  if s.crashed then
    none
  else
    match action with
    | .kprintf call => s.apply (kprintf s.sh call) (fun sh => { s with sh := sh })
    | .event thid choice =>
        s.apply (eventStep thid s.sh (s.threads thid) choice)
          (fun (sh, pc) =>
            { s with sh := sh, threads := Function.update s.threads thid pc })
    | .client n choice =>
        s.apply (clientStep n s.sh (s.clients n) choice)
          (fun (sh, pc) =>
            { s with sh := sh, clients := Function.update s.clients n pc })
    | .loader choice =>
        s.apply (loaderStep s.sh s.threads s.loader choice)
          (fun (sh, threads, pc) =>
            { s with sh := sh, threads := threads, loader := pc })
    | .overRegister entry =>
        some { s with sh := { s.sh with k := { s.sh.k with hook := .foreign entry } } }

/-- The freshly loaded image, before _start: no kernel object exists. -/
def State.loaded (cfg : Config) : State cfg where
  sh :=
    { g := .loaded cfg
      k :=
        { mem := ⟨∅, fun _ => ⟨-1, 0, zeroedMsg 0⟩⟩
          vpls := fun _ => false
          evflags := fun _ => none
          semas := fun _ => none
          hook := .none
          intr := true }
      history := [] }
  threads := fun _ => .absent
  clients := fun _ => none
  loader := .loaded
  crashed := false

/-- The module as a machine. -/
def machine (cfg : Config) : System (State cfg) (Action cfg) where
  init := .loaded cfg
  step := State.step

/-- Whether the module manager calls _start. -/
def Action.isStart : Action cfg → Bool
  | .loader .start => true
  | _ => false

/-- The guard of a single session: _start is not called again. -/
def SingleSession (s : State cfg) (action : Action cfg) : Prop :=
  action.isStart = true → s.loader = .loaded

instance (s : State cfg) (action : Action cfg) : Decidable (SingleSession s action) :=
  inferInstanceAs (Decidable (_ → _))

/-- The action makes its thread touch memory it must not. -/
def State.Faults (s : State cfg) : Action cfg → Prop
  | .kprintf call => LibKprintf.kprintf s.sh call = .fault
  | .event thid choice => eventStep thid s.sh (s.threads thid) choice = .fault
  | .client n choice => clientStep n s.sh (s.clients n) choice = .fault
  | .loader choice => loaderStep s.sh s.threads s.loader choice = .fault
  | .overRegister _ => False

/-- What one enabled action can come to. -/
inductive State.StepCase (s : State cfg) : Action cfg → State cfg → Prop
  | crash {action} (faults : s.Faults action) : s.StepCase action { s with crashed := true }
  | kprintf {call sh} (stepped : LibKprintf.kprintf s.sh call = .next sh)
    : s.StepCase (.kprintf call) { s with sh := sh }
  | event {thid choice sh pc}
    (stepped : eventStep thid s.sh (s.threads thid) choice = .next (sh, pc))
    : s.StepCase (.event thid choice)
        { s with sh := sh, threads := Function.update s.threads thid pc }
  | client {n choice sh pc} (stepped : clientStep n s.sh (s.clients n) choice = .next (sh, pc))
    : s.StepCase (.client n choice)
        { s with sh := sh, clients := Function.update s.clients n pc }
  | loader {choice sh threads pc}
    (stepped : loaderStep s.sh s.threads s.loader choice = .next (sh, threads, pc))
    : s.StepCase (.loader choice) { s with sh := sh, threads := threads, loader := pc }
  | overRegister {entry}
    : s.StepCase (.overRegister entry)
        { s with sh := { s.sh with k := { s.sh.k with hook := .foreign entry } } }

/-- Every enabled action is one of the cases, by inspecting the result of its thread. -/
theorem State.step_cases {s t : State cfg} {action : Action cfg}
    (stepped : s.step action = some t)
    : s.StepCase action t := by
  unfold State.step at stepped
  split at stepped
  · contradiction
  cases action with
  | kprintf call =>
      cases result : LibKprintf.kprintf s.sh call with
      | disabled => simp [State.apply, result] at stepped
      | fault => simp [State.apply, result] at stepped; exact stepped ▸ .crash result
      | next sh => simp [State.apply, result] at stepped; exact stepped ▸ .kprintf result
  | event thid choice =>
      cases result : eventStep thid s.sh (s.threads thid) choice with
      | disabled => simp [State.apply, result] at stepped
      | fault => simp [State.apply, result] at stepped; exact stepped ▸ .crash result
      | next moved => simp [State.apply, result] at stepped; exact stepped ▸ .event result
  | client n choice =>
      cases result : clientStep n s.sh (s.clients n) choice with
      | disabled => simp [State.apply, result] at stepped
      | fault => simp [State.apply, result] at stepped; exact stepped ▸ .crash result
      | next moved => simp [State.apply, result] at stepped; exact stepped ▸ .client result
  | loader choice =>
      cases result : loaderStep s.sh s.threads s.loader choice with
      | disabled => simp [State.apply, result] at stepped
      | fault => simp [State.apply, result] at stepped; exact stepped ▸ .crash result
      | next moved => simp [State.apply, result] at stepped; exact stepped ▸ .loader result
  | overRegister entry =>
      simp only [Option.some.injEq] at stepped
      exact stepped ▸ .overRegister

end LibKprintf
