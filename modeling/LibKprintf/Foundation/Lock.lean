import Mathlib.Logic.Function.Basic

/-! The bookkeeping of a lock: which threads are inside the section it guards, and which
thread holds it.
-/

namespace LibKprintf.Foundation

variable {Thread : Type*} [DecidableEq Thread]
variable {inside : Thread → Bool} {holder : Option Thread} {thread : Thread}

/-- The threads inside the guarded section are exactly the holder, if there is one. -/
def Guarded (inside : Thread → Bool) (holder : Option Thread) : Prop :=
  ∀ thread, inside thread = true ↔ holder = some thread

omit [DecidableEq Thread] in
/-- At most one thread is inside. -/
theorem Guarded.exclusive {other : Thread} (guarded : Guarded inside holder)
    (first : inside thread = true) (second : inside other = true)
    : thread = other :=
  Option.some.inj (((guarded thread).mp first).symm.trans ((guarded other).mp second))

omit [DecidableEq Thread] in
/-- While the lock is free nobody is inside. -/
theorem Guarded.free (guarded : Guarded inside none) : inside thread = false := by
  simpa using guarded thread

/-- A thread that takes the free lock goes inside alone. -/
theorem Guarded.acquire (guarded : Guarded inside none)
    : Guarded (Function.update inside thread true) (some thread) := by
  intro other
  by_cases same : other = thread
  · subst same
    simp
  · simp [same, Ne.symm same, guarded.free]

/-- When the thread inside gives the lock back nobody is inside. -/
theorem Guarded.release (guarded : Guarded inside holder) (held : inside thread = true)
    : Guarded (Function.update inside thread false) none := by
  intro other
  by_cases same : other = thread
  · subst same
    simp
  · have apart : inside other ≠ true := fun entered =>
      same (guarded.exclusive entered held)
    simp [same, apart]

end LibKprintf.Foundation
