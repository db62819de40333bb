import LibKprintf.Queue.Operations

/-! remove_delete_msg on any list and any pointer: a node of the list is unlinked and then freed,
wherever it stands, and any other pointer is left alone.
-/

namespace LibKprintf

open Foundation

variable {cfg : Config} {sh : Shared cfg} {nodes : List Addr} {m : Addr}

/-- How a node leaves the list that starts at `g_head`: the list loses exactly this node, whose
block is then given back to the pool, once; the other messages and the interrupt state are as
before.
-/
structure TakesOut (sh sh' : Shared cfg) (nodes : List Addr) (m : Addr) (ret : Int) : Prop where
  unlinks
    : ∃ unlinked : Shared cfg, Linked unlinked (nodes.erase m) ∧ m ∉ nodes.erase m
        ∧ unlinked.k.mem.live = sh.k.mem.live ∧ unlinked.history = sh.history
        ∧ (sh'.k, ret) = unlinked.k.sceKernelFreeVpl sh.g.gVplid m
  list : Linked sh' (nodes.erase m)
  contents
    : ∀ a ∈ nodes.erase m,
        (sh'.k.mem.block a).msg.toMsgBody = (sh.k.mem.block a).msg.toMsgBody
        ∧ (sh'.k.mem.block a).vpl = (sh.k.mem.block a).vpl
        ∧ (sh'.k.mem.block a).stamp = (sh.k.mem.block a).stamp
  freed
    : ret = 0 →
        sh'.k.mem.live = sh.k.mem.live.erase m
        ∧ sh'.history = sh.history ++ [.freed (sh.k.mem.block m).stamp]
  refused : ret ≠ 0 → sh'.k.mem.live = sh.k.mem.live ∧ sh'.history = sh.history
  intr : sh'.k.intr = sh.k.intr

/-- Freeing an unlinked message is one call of sceKernelFreeVpl. If it succeeds the block is gone
and the history notes it, else nothing has changed.
-/
theorem freeMsg_cases (sh : Shared cfg) (m : Addr)
    : ((freeMsg sh m).1.k, (freeMsg sh m).2) = sh.k.sceKernelFreeVpl sh.g.gVplid m
      ∧ (freeMsg sh m
            = ((sh.withQueue sh.g.gHead (sh.k.mem.release m)).note
                (.freed (sh.k.mem.block m).stamp), 0)
          ∨ ∃ code, code ≠ 0 ∧ freeMsg sh m = (sh, code)) := by
  unfold freeMsg Kernel.sceKernelFreeVpl
  by_cases pool : sh.k.vpls sh.g.gVplid = false
  · have failed : sceErrorKernelNotFoundVpool ≠ 0 := by decide
    simp [pool, failed]
  · by_cases live : m ∈ sh.k.mem.live ∧ (sh.k.mem.block m).vpl = sh.g.gVplid
    · simp [pool, live, Shared.withQueue, Shared.note]
    · have failed : sceErrorKernelIllegalMemblock ≠ 0 := by decide
      simp [pool, live, failed]

/-- A list that a node is not in outlives the block of the node. -/
theorem Linked.released (linked : Linked sh nodes) (absent : m ∉ nodes)
    : Linked (sh.withQueue sh.g.gHead (sh.k.mem.release m)) nodes where
  chain := linked.chain
  live := fun a member =>
    Finset.mem_erase.mpr ⟨fun same => absent (same ▸ member), linked.live a member⟩

/-- A node of the list is taken out of it. -/
theorem removeDeleteMsg_takesOut (linked : Linked sh nodes) (member : m ∈ nodes)
    : ∃ sh' ret, removeDeleteMsg sh m = some (sh', ret) ∧ TakesOut sh sh' nodes m ret := by
  obtain ⟨front, back, rfl, absent⟩ := List.eq_append_cons_of_mem member
  obtain ⟨head, mem, removed, relinked, rest⟩ := removeDeleteMsg_linked linked
  have erased : (front ++ m :: back).erase m = front ++ back := by
    rw [List.erase_append_right _ absent, List.erase_cons_head]
  have gone : m ∉ front ++ back := (List.nodup_middle.mp linked.chain.nodup).notMem
  have contents (a : Addr)
      : (mem.block a).msg.toMsgBody = (sh.k.mem.block a).msg.toMsgBody
        ∧ (mem.block a).vpl = (sh.k.mem.block a).vpl
        ∧ (mem.block a).stamp = (sh.k.mem.block a).stamp :=
    ⟨relinked.body a, relinked.vpl a, relinked.stamp a⟩
  obtain ⟨kernel, outcome⟩ := freeMsg_cases (sh.withQueue head mem) m
  have unlinked
      : Linked (sh.withQueue head mem) ((front ++ m :: back).erase m)
        ∧ m ∉ (front ++ m :: back).erase m :=
    ⟨erased ▸ rest, erased ▸ gone⟩
  refine ⟨(freeMsg (sh.withQueue head mem) m).1, (freeMsg (sh.withQueue head mem) m).2,
    removed, ?_⟩
  rcases outcome with success | ⟨code, failed, failure⟩
  · rw [success] at kernel ⊢
    refine ⟨⟨sh.withQueue head mem, unlinked.1, unlinked.2, relinked.live, rfl, kernel⟩, ?_,
      fun a _ => contents a, fun _ => ⟨?_, ?_⟩, fun other => absurd rfl other, rfl⟩
    · have released := rest.released gone
      rw [erased]
      exact ⟨released.chain, released.live⟩
    · exact congrArg (Finset.erase · m) relinked.live
    · simp [relinked.stamp]
  · rw [failure] at kernel ⊢
    exact ⟨⟨sh.withQueue head mem, unlinked.1, unlinked.2, relinked.live, rfl, kernel⟩,
      unlinked.1, fun a _ => contents a, fun zero => absurd zero failed,
      fun _ => ⟨relinked.live, rfl⟩, rfl⟩

/-- A pointer that is not in the list is looked for and not found. -/
theorem removeDeleteMsg_absent (linked : Linked sh nodes) (absent : m ∉ nodes)
    : removeDeleteMsg sh m = some (sh, 0) := by
  by_cases empty : sh.g.gHead = 0
  · rw [removeDeleteMsg, if_pos empty]
  · have whole : Linked sh (nodes ++ []) := by rwa [List.append_nil]
    have ends : walk sh.k.mem.loadNext 0 (fun cur => decide (cur = m)) sh.k.mem.live.card 0
        sh.g.gHead = some (nodes.getLastD 0, 0) := by
      refine whole.walk linked.chain.segment (fun a member => ?_) (Or.inl rfl)
      simpa using fun same : a = m => absent (same ▸ member)
    rw [removeDeleteMsg, if_neg empty]
    simp only [Kernel.sceKernelCpuSuspendIntr, Option.bind_eq_bind, ends, Option.bind_some, if_true,
      Kernel.sceKernelCpuResumeIntrWithSync]
    rfl

/-- remove_delete_msg ends for every list and every pointer: a node of the list is taken out of it
and freed, and for any other pointer nothing happens.
-/
theorem removes_from_anywhere (linked : Linked sh nodes) (m : Addr)
    : (m ∈ nodes →
          ∃ sh' ret, removeDeleteMsg sh m = some (sh', ret) ∧ TakesOut sh sh' nodes m ret)
      ∧ (m ∉ nodes → removeDeleteMsg sh m = some (sh, 0)) :=
  ⟨removeDeleteMsg_takesOut linked, removeDeleteMsg_absent linked⟩

/-- Three nodes in a list, and a block that is in no list. -/
def threeNodes : Shared .shipped where
  g := { Globals.loaded .shipped with gVplid := 10, gHead := 100 }
  k :=
    { mem :=
        ⟨{100, 200, 300, 400}, fun a =>
          ⟨10, a / 100, { zeroedMsg 30 with next := if a < 300 then a + 100 else 0 }⟩⟩
      vpls := fun id => id = 10
      evflags := fun _ => none
      semas := fun _ => none
      hook := .none
      intr := true }
  history := []

/-- Witness: the node in the middle is taken out. -/
theorem removes_from_middle
    : ∃ sh' ret, removeDeleteMsg threeNodes 200 = some (sh', ret)
        ∧ TakesOut threeNodes sh' [100, 200, 300] 200 ret := by
  have linked : Linked threeNodes [100, 200, 300] :=
    ⟨⟨⟨rfl, rfl, rfl, rfl⟩, by decide⟩, by decide⟩
  exact (removes_from_anywhere linked 200).1 (by decide)

end LibKprintf
