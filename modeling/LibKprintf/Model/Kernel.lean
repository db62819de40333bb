import LibKprintf.Model.Basic

/-! The part of the kernel the library calls: memory pools, event flags, semaphores, the
Kprintf hook and the interrupt state. Object ids are what the creating call answered; a
call on an id that names no object fails and changes nothing.
-/

namespace LibKprintf

/-- An allocated block: the pool it came from, the stamp of the message in it (history
only) and its contents.
-/
structure Block where
  vpl : Uid
  stamp : Nat
  msg : KprintfMsg

/-- The blocks of all pools. The contents of an address that is not live mean nothing. -/
structure Mem where
  live : Finset Addr
  block : Addr → Block

/-- The link stored at an address. -/
def Mem.next (mem : Mem) (a : Addr) : Addr := (mem.block a).msg.next

/-- Read the message at an address; `none` unless the block is live. -/
def Mem.load (mem : Mem) (a : Addr) : Option KprintfMsg :=
  if a ∈ mem.live then some (mem.block a).msg else none

/-- Read only the link of the message at an address. -/
def Mem.loadNext (mem : Mem) (a : Addr) : Option Addr := (mem.load a).map KprintfMsg.next

/-- Change the message at an address; `none` unless the block is live. -/
def Mem.store (mem : Mem) (a : Addr) (change : KprintfMsg → KprintfMsg) : Option Mem :=
  if a ∈ mem.live then
    some
      {
        mem with
        block :=
          Function.update mem.block a
            { mem.block a with msg := change (mem.block a).msg }
      }
  else
    none

/-- Hand out the block at an address. -/
def Mem.allocate (mem : Mem) (a : Addr) (block : Block) : Mem where
  live := insert a mem.live
  block := Function.update mem.block a block

/-- Take the block at an address back. Its contents stay behind. -/
def Mem.release (mem : Mem) (a : Addr) : Mem := { mem with live := mem.live.erase a }

/-- A counting semaphore, with the thread that took its last unit (history only). -/
structure Sema where
  count : Nat
  max : Nat
  holder : Option ThreadRef
  deriving DecidableEq, Repr

/-- The handler registered with the kernel for Kprintf. -/
inductive Hook
  | none
  | kprintfHandler
  | foreign (entry : Nat)
  deriving DecidableEq, Repr

structure Kernel where
  mem : Mem
  vpls : Uid → Bool
  evflags : Uid → Option U32
  semas : Uid → Option Sema
  hook : Hook
  intr : Bool

namespace Kernel

/-- Whether `sceKernelTryAllocateVpl` may answer so: a negative code, or a block of a live
pool at any address that is neither `NULL` nor live.
-/
def MayAllocate (k : Kernel) (vplid : Uid) : Except Int Addr → Prop
  | .error code => code < 0
  | .ok a => k.vpls vplid = true ∧ a ≠ 0 ∧ a ∉ k.mem.live

instance (k : Kernel) (vplid : Uid) (answer : Except Int Addr)
    : Decidable (k.MayAllocate vplid answer) :=
  match answer with
  | .error code => inferInstanceAs (Decidable (code < 0))
  | .ok a => inferInstanceAs (Decidable (k.vpls vplid = true ∧ a ≠ 0 ∧ a ∉ k.mem.live))

def sceKernelFreeVpl (k : Kernel) (vplid : Uid) (a : Addr) : Kernel × Int :=
  if k.vpls vplid = false then
    (k, sceErrorKernelNotFoundVpool)
  else if a ∈ k.mem.live ∧ (k.mem.block a).vpl = vplid then
    ({ k with mem := k.mem.release a }, 0)
  else
    (k, sceErrorKernelIllegalMemblock)

def sceKernelSetEventFlag (k : Kernel) (evid : Uid) (bitpattern : U32) : Kernel × Int :=
  match k.evflags evid with
  | none => (k, sceErrorKernelNotFoundEventFlag)
  | some bits =>
      ({ k with evflags := Function.update k.evflags evid (some (bits ||| bitpattern)) }, 0)

/-- The successful end of `sceKernelWaitEventFlag` with `EW_OR | EW_CLEAR_PAT`: once a bit
of the pattern is set, report all bits and clear those of the pattern.
-/
def takeEventFlag (k : Kernel) (evid : Uid) (bitpattern : U32) : Option (Kernel × U32) :=
  match k.evflags evid with
  | none => none
  | some bits =>
      if bits &&& bitpattern = 0 then
        none
      else
        some
          ({ k with evflags := Function.update k.evflags evid (some (bits &&& ~~~bitpattern)) },
            bits)

/-- The successful end of `sceKernelWaitSema` for one unit. -/
def takeSema (k : Kernel) (semid : Uid) (thread : ThreadRef) : Option Kernel :=
  match k.semas semid with
  | some ⟨count + 1, max, _⟩ =>
      some { k with semas := Function.update k.semas semid (some ⟨count, max, some thread⟩) }
  | _ => none

/-- `sceKernelSignalSema` for one unit. -/
def sceKernelSignalSema (k : Kernel) (semid : Uid) : Kernel × Int :=
  match k.semas semid with
  | none => (k, sceErrorKernelNotFoundSemaphore)
  | some sema =>
      if sema.count < sema.max then
        ({
          k with
          semas := Function.update k.semas semid (some ⟨sema.count + 1, sema.max, none⟩)
        }, 0)
      else
        (k, sceErrorKernelSemaOverflow)

def sceKernelCpuSuspendIntr (k : Kernel) : Kernel × Bool := ({ k with intr := false }, k.intr)

def sceKernelCpuResumeIntrWithSync (k : Kernel) (intr : Bool) : Kernel := { k with intr }

end Kernel

/-- The variables of globals.c. -/
structure Globals (cfg : Config) where
  gState : ModuleState
  gStdout : Uid
  gVplid : Uid
  gEvid : Uid
  gSemid : Uid
  gThid : Uid
  gDefaultHandlerIndex : Int
  gHandlerCount : U32
  gHandlers : Vector RegHandler cfg.kprintfMaxHandlers
  gHead : Addr

/-- The globals of a freshly loaded image. -/
def Globals.loaded (cfg : Config) : Globals cfg where
  gState := .stopped
  gStdout := -1
  gVplid := -1
  gEvid := -1
  gSemid := -1
  gThid := -1
  gDefaultHandlerIndex := -1
  gHandlerCount := 0
  gHandlers := Vector.replicate _ .empty
  gHead := 0

/-- What every thread can reach: the globals and the kernel, with the history so far. -/
structure Shared (cfg : Config) where
  g : Globals cfg
  k : Kernel
  history : List Event

namespace Shared

variable {cfg : Config}

/-- Note an event in the history. -/
def note (sh : Shared cfg) (event : Event) : Shared cfg :=
  { sh with history := sh.history ++ [event] }

@[simp] theorem note_g (sh : Shared cfg) (event : Event) : (sh.note event).g = sh.g := rfl

@[simp] theorem note_k (sh : Shared cfg) (event : Event) : (sh.note event).k = sh.k := rfl

@[simp] theorem note_history (sh : Shared cfg) (event : Event)
    : (sh.note event).history = sh.history ++ [event] :=
  rfl

/-- The bits of the event flag `g_evid`. -/
def flag (sh : Shared cfg) : U32 := (sh.k.evflags sh.g.gEvid).getD 0

/-- `sceKernelSetEventFlag(g_evid, bitpattern)`, ignoring what it answers. -/
def setEventFlag (sh : Shared cfg) (bitpattern : U32) : Shared cfg :=
  { sh with k := (sh.k.sceKernelSetEventFlag sh.g.gEvid bitpattern).1 }

section SetEventFlag

variable (sh : Shared cfg) (bits : U32)

@[simp] theorem setEventFlag_g : (sh.setEventFlag bits).g = sh.g := rfl

@[simp] theorem setEventFlag_history : (sh.setEventFlag bits).history = sh.history := rfl

@[simp] theorem setEventFlag_mem : (sh.setEventFlag bits).k.mem = sh.k.mem := by
  unfold setEventFlag Kernel.sceKernelSetEventFlag
  cases sh.k.evflags sh.g.gEvid <;> rfl

@[simp] theorem setEventFlag_vpls : (sh.setEventFlag bits).k.vpls = sh.k.vpls := by
  unfold setEventFlag Kernel.sceKernelSetEventFlag
  cases sh.k.evflags sh.g.gEvid <;> rfl

@[simp] theorem setEventFlag_semas : (sh.setEventFlag bits).k.semas = sh.k.semas := by
  unfold setEventFlag Kernel.sceKernelSetEventFlag
  cases sh.k.evflags sh.g.gEvid <;> rfl

@[simp] theorem setEventFlag_hook : (sh.setEventFlag bits).k.hook = sh.k.hook := by
  unfold setEventFlag Kernel.sceKernelSetEventFlag
  cases sh.k.evflags sh.g.gEvid <;> rfl

end SetEventFlag

end Shared

/-- What one step of a thread comes to: not enabled, an access outside live memory, or a
new state.
-/
inductive StepResult (α : Type)
  | disabled
  | fault
  | next (a : α)

namespace StepResult

variable {α β : Type}

def map (f : α → β) : StepResult α → StepResult β
  | .disabled => .disabled
  | .fault => .fault
  | .next a => .next (f a)

/-- Code that touches memory faults where it has no result. -/
def ofMemory : Option α → StepResult α
  | none => .fault
  | some a => .next a

/-- A blocking call has no step while it blocks. -/
def ofBlocking : Option α → StepResult α
  | none => .disabled
  | some a => .next a

@[simp] theorem map_eq_next {f : α → β} {result : StepResult α} {b : β}
    : result.map f = .next b ↔ ∃ a, result = .next a ∧ f a = b := by
  cases result <;> simp [map]

@[simp] theorem map_eq_fault {f : α → β} {result : StepResult α}
    : result.map f = .fault ↔ result = .fault := by
  cases result <;> simp [map]

@[simp] theorem ofMemory_eq_next {value : Option α} {a : α}
    : ofMemory value = .next a ↔ value = some a := by
  cases value <;> simp [ofMemory]

@[simp] theorem ofMemory_eq_fault {value : Option α} : ofMemory value = .fault ↔ value = none := by
  cases value <;> simp [ofMemory]

@[simp] theorem ofBlocking_eq_next {value : Option α} {a : α}
    : ofBlocking value = .next a ↔ value = some a := by
  cases value <;> simp [ofBlocking]

@[simp] theorem ofBlocking_ne_fault {value : Option α} : ofBlocking value ≠ .fault := by
  cases value <;> simp [ofBlocking]

end StepResult

end LibKprintf
