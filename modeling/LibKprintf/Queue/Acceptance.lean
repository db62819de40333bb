import LibKprintf.Queue.Operations

/-! A Kprintf call is accepted whole, with one new node and the event that wakes the event thread,
or it has no effect.
-/

namespace LibKprintf

open Foundation

variable {cfg : Config}

/-- An accepted call: the new message `m` stands behind all others, which are as they were but for
the link of the last one, and of the event bits EV_FLUSH is set.
-/
structure AcceptedWhole (sh sh' : Shared cfg) (call : KprintfCall cfg) (nodes : List Addr)
    (m : Addr)
    : Prop where
  queue : Queue sh' (nodes ++ [m])
  fresh : m ∉ sh.k.mem.live
  live : sh'.k.mem.live = insert m sh.k.mem.live
  contents
    : fillMsg call.buf.toList call.len call.isUser = some (sh'.k.mem.block m).msg
  others
    : ∀ a, a ≠ m → nodes.getLast? ≠ some a → sh'.k.mem.block a = sh.k.mem.block a
  last
    : ∀ a, nodes.getLast? = some a →
        sh'.k.mem.block a
          = { sh.k.mem.block a with msg := { (sh.k.mem.block a).msg with next := m } }
  kernel : sh'.k = { sh.k with mem := sh'.k.mem, evflags := sh'.k.evflags }
  globals : sh'.g = { sh.g with gHead := if nodes = [] then m else sh.g.gHead }
  flag
    : ∀ bits, sh.k.evflags sh.g.gEvid = some bits →
        sh'.k.evflags = Function.update sh.k.evflags sh.g.gEvid (some (bits ||| evFlush))

/-- An accepted call does so: the queue is that of the appended message, and add_msg has changed
at most one block.
-/
theorem acceptedWhole {sh : Shared cfg} {nodes : List Addr} (call : KprintfCall cfg) {m : Addr}
    (queue : Queue sh nodes) (started : sh.g.gState = .started)
    (accepts : ¬ (call.len.toInt ≤ 0 ∨ call.len.toNat ≥ cfg.kprintfBufsz))
    (answer : call.answer = .ok m) (nonnull : m ≠ 0) (unused : m ∉ sh.k.mem.live)
    : ∃ sh', kprintfHandler sh call = some (sh', call.len.toInt)
        ∧ AcceptedWhole sh sh' call nodes m := by
  have fresh : m ∉ nodes := fun member => unused ((queue.live m).mpr member)
  have fits : call.len.toNat < cfg.kprintfBufsz := not_le.mp (not_or.mp accepts).2
  obtain ⟨contents, filled, _⟩ := fillMsg_fits fits call.buf.toList call.isUser
  obtain ⟨sh', handled, appends⟩ := kprintfHandler_ok queue started accepts answer nonnull unused
  refine ⟨sh', handled, ?_⟩
  have framed {head : Addr} {mem : Mem} : (((sh.withMsg m contents).withQueue head mem).setEventFlag
      evFlush).k = { sh.k with mem := mem, evflags :=
        (((sh.withMsg m contents).withQueue head mem).setEventFlag evFlush).k.evflags } := by
    simp only [Shared.setEventFlag, Kernel.sceKernelSetEventFlag]
    split <;> rfl
  have flagged {linked : Shared cfg} (evflags : linked.k.evflags = sh.k.evflags)
      (gEvid : linked.g.gEvid = sh.g.gEvid) (bits : U32)
      (set : sh.k.evflags sh.g.gEvid = some bits) :
      (linked.setEventFlag evFlush).k.evflags
        = Function.update sh.k.evflags sh.g.gEvid (some (bits ||| evFlush)) := by
    simp [Shared.setEventFlag, Kernel.sceKernelSetEventFlag, evflags, gEvid, set]
  rcases addMsg_cases (queue.withMsg fresh contents) m with
    ⟨rfl, added⟩ | ⟨front, last, mem, rfl, stored, added⟩
  · have same := kprintfHandler_accepts started accepts answer filled added
    cases Option.some.inj (handled.symm.trans same)
    refine ⟨appends.queue, unused, by simp [Shared.withMsg, Mem.allocate], ?_, ?_, by simp, ?_, ?_, ?_⟩
    · simp [filled, Shared.withMsg, Mem.allocate]
    · intro a other _
      simp [Shared.withMsg, Mem.allocate, other]
    · simpa using framed
    · simp [Shared.withMsg, Shared.withQueue]
    · exact flagged rfl rfl
  · have same := kprintfHandler_accepts started accepts answer filled added
    cases Option.some.inj (handled.symm.trans same)
    have different : m ≠ last := by
      rintro rfl
      exact fresh (by simp)
    have held : last ∈ (sh.withMsg m contents).k.mem.live :=
      (queue.withMsg fresh contents).live last (by simp)
    simp only [Mem.store, held, if_true, Option.some.injEq] at stored
    subst stored
    refine ⟨appends.queue, unused, by simp [Shared.withMsg, Mem.allocate], ?_, ?_, ?_, ?_, ?_, ?_⟩
    · simp [filled, different, Shared.withMsg, Mem.allocate]
    · intro a other notLast
      have notLast : a ≠ last := by
        rintro rfl
        simp at notLast
      simp [other, notLast, Shared.withMsg, Mem.allocate]
    · intro a isLast
      obtain rfl : last = a := by simpa using isLast
      simp [different.symm, Shared.withMsg, Mem.allocate]
    · simpa using framed
    · simp [Shared.withMsg, Shared.withQueue]
    · exact flagged rfl rfl

/-- Whole or nothing: for every queue, every state of the module, every result of vsnprintf and
whatever the allocator may answer, kprintf_handler answers a positive number exactly when it
accepts the message, whole, and otherwise has no effect.
-/
theorem kprintf_whole {sh : Shared cfg} {nodes : List Addr} {call : KprintfCall cfg}
    (queue : Queue sh nodes) (may : sh.k.MayAllocate sh.g.gVplid call.answer)
    : ∃ sh' ret, kprintfHandler sh call = some (sh', ret)
        ∧ (0 < ret
          ↔ sh.g.gState = .started ∧ 0 < call.len.toInt ∧ call.len.toInt < cfg.kprintfBufsz
            ∧ ∃ m, call.answer = .ok m)
        ∧ (∀ m, 0 < ret → call.answer = .ok m →
            ret = call.len.toInt ∧ AcceptedWhole sh sh' call nodes m)
        ∧ (ret ≤ 0 → sh' = sh)
        ∧ (ret < 0 → call.answer = .error ret) := by
  have width : 0 < call.len.toInt → call.len.toInt = call.len.toNat := by
    intro positive
    rw [BitVec.toInt_eq_toNat_cond] at positive ⊢
    split
    · rfl
    · rename_i large
      simp only [large, if_false] at positive
      omega
  by_cases started : sh.g.gState = .started
  swap
  · exact ⟨sh, 0, kprintfHandler_refuses (Or.inl started), by simp [started], by simp, by simp,
      by simp⟩
  by_cases refused : call.len.toInt ≤ 0 ∨ call.len.toNat ≥ cfg.kprintfBufsz
  · refine ⟨sh, 0, kprintfHandler_refuses (Or.inr refused), ?_, by simp, by simp, by simp⟩
    simp only [lt_irrefl, false_iff]
    intro ⟨_, positive, small, _⟩
    have same := width positive
    omega
  have accepts : 0 < call.len.toInt ∧ call.len.toInt < cfg.kprintfBufsz := by
    have same := width (by omega)
    omega
  cases answer : call.answer with
  | error code =>
      simp only [Kernel.MayAllocate, answer] at may
      refine ⟨sh, code, kprintfHandler_outOfMemory started refused answer, ?_, ?_, by simp, by simp⟩
      · simp [not_lt.mpr may.le]
      · intro m positive
        exact absurd positive (not_lt.mpr may.le)
  | ok m =>
      simp only [Kernel.MayAllocate, answer] at may
      obtain ⟨_, nonnull, unused⟩ := may
      obtain ⟨sh', handled, whole⟩ := acceptedWhole call queue started refused answer nonnull unused
      refine ⟨sh', _, handled, ?_, ?_, fun small => ?_, fun small => ?_⟩
      · simp [started, accepts]
      · rintro m' _ ⟨⟩
        exact ⟨rfl, whole⟩
      · exact absurd small (not_le.mpr accepts.1)
      · exact absurd small (not_lt.mpr accepts.1.le)

/-- A started module without a message, with pool 10 and event flag 11. -/
def idle : Shared .shipped where
  g := { Globals.loaded .shipped with gState := .started, gVplid := 10, gEvid := 11 }
  k :=
    { mem := ⟨∅, fun _ => ⟨-1, 0, zeroedMsg 0⟩⟩
      vpls := fun id => id = 10
      evflags := fun id => if id = 11 then some evStopOk else none
      semas := fun _ => none
      hook := .kprintfHandler
      intr := true }
  history := []

/-- Its queue is empty. -/
theorem idle_queue : Queue idle [] :=
  ⟨chain_nil.mpr rfl, by simp [idle], by simp⟩

/-- Three letters, and a block of the pool for them. -/
def threeLetters : KprintfCall .shipped := ⟨0, 3, Vector.replicate 256 65, .ok 100⟩

/-- Witness: they are accepted. -/
theorem kprintf_whole_run
    : ∃ sh', kprintfHandler idle threeLetters = some (sh', 3)
        ∧ AcceptedWhole idle sh' threeLetters [] 100 := by
  have may : idle.k.MayAllocate idle.g.gVplid threeLetters.answer := by decide
  obtain ⟨sh', ret, handled, positive, whole, _⟩ := kprintf_whole idle_queue may
  have accepted : 0 < ret := positive.mpr ⟨rfl, by decide, by decide, 100, rfl⟩
  obtain ⟨length, whole⟩ := whole 100 accepted rfl
  have three : ret = 3 := length.trans (by decide)
  exact ⟨sh', three ▸ handled, whole⟩

end LibKprintf
