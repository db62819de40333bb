import LibKprintf.Session.Effects

/-! What the operations of msg.c do to the list that starts at `g_head`. Each has one
specification over an arbitrary list of live nodes; the invariants of the queue use these
and never look inside the operations.
-/

namespace LibKprintf

open Foundation

variable {cfg : Config}

/-- The later memory has the same blocks, except for the links. -/
structure Mem.Relinked (mem mem' : Mem) : Prop where
  live : mem'.live = mem.live
  vpl : ∀ a, (mem'.block a).vpl = (mem.block a).vpl
  stamp : ∀ a, (mem'.block a).stamp = (mem.block a).stamp
  body : ∀ a, (mem'.block a).msg.toMsgBody = (mem.block a).msg.toMsgBody

namespace Mem

variable {mem : Mem} {a : Addr}

/-- No link changed. -/
theorem Relinked.refl (mem : Mem) : mem.Relinked mem :=
  ⟨rfl, fun _ => rfl, fun _ => rfl, fun _ => rfl⟩

/-- The link of a live node can be read. -/
theorem loadNext_live (live : a ∈ mem.live) : mem.loadNext a = some (mem.next a) := by
  simp [loadNext, load, live, next]

/-- The link of a live node can be written, and nothing else changes. -/
theorem store_next (live : a ∈ mem.live) (link : Addr)
    : ∃ mem', mem.store a (fun node => { node with next := link }) = some mem'
        ∧ mem.Relinked mem' ∧ mem'.next = Function.update mem.next a link := by
  simp only [store, live, if_true, Option.some.injEq, exists_eq_left']
  refine ⟨⟨rfl, ?_, ?_, ?_⟩, ?_⟩
  · intro other
    by_cases same : other = a <;> simp [same]
  · intro other
    by_cases same : other = a <;> simp [same]
  · intro other
    by_cases same : other = a <;> simp [same]
  · funext other
    by_cases same : other = a <;> simp [next, same]

/-- The later memory differs in the length and the text of one message only. -/
structure Rewritten (mem mem' : Mem) (a : Addr) : Prop where
  live : mem'.live = mem.live
  next : mem'.next = mem.next
  vpl : ∀ b, (mem'.block b).vpl = (mem.block b).vpl
  stamp : ∀ b, (mem'.block b).stamp = (mem.block b).stamp
  others : ∀ b, b ≠ a → mem'.block b = mem.block b

/-- Writing the length and the text of a message does so. -/
theorem store_text {mem' : Mem} {len : U16} {msg : List Byte}
    (stored : mem.store a (fun node => { node with len := len, msg := msg }) = some mem')
    : mem.Rewritten mem' a := by
  unfold store at stored
  split at stored
  · cases stored
    refine ⟨rfl, funext fun b => ?_, fun b => ?_, fun b => ?_, fun b different => ?_⟩
    · by_cases same : b = a <;> simp [Mem.next, same]
    · by_cases same : b = a <;> simp [same]
    · by_cases same : b = a <;> simp [same]
    · simp [different]
  · contradiction

end Mem

/-- The list that starts at `g_head` has these nodes, and all of them are live. -/
structure Linked (sh : Shared cfg) (nodes : List Addr) : Prop where
  chain : Chain sh.k.mem.next 0 sh.g.gHead nodes
  live : ∀ a ∈ nodes, a ∈ sh.k.mem.live

/-- A list of live nodes is no longer than the number of live blocks. -/
theorem Linked.length_le {sh : Shared cfg} {nodes : List Addr} (linked : Linked sh nodes)
    : nodes.length ≤ sh.k.mem.live.card := by
  rw [← List.toFinset_card_of_nodup linked.chain.nodup]
  exact Finset.card_le_card (fun a member => linked.live a (by simpa using member))

/-- The loops of msg.c over a list of live nodes stop at its end, or at the first node they
look for, with the node before it.
-/
theorem Linked.walk {sh : Shared cfg} {front back : List Addr} {found : Addr → Bool}
    {stop : Addr} (linked : Linked sh (front ++ back))
    (segment : Segment sh.k.mem.next sh.g.gHead front stop)
    (absent : ∀ a ∈ front, found a = false) (halts : stop = 0 ∨ found stop = true)
    : walk sh.k.mem.loadNext 0 found sh.k.mem.live.card 0 sh.g.gHead
      = some (front.getLastD 0, stop) := by
  refine walk_segment segment ?_ ?_ absent halts ?_
  · exact fun null => linked.chain.proper (List.mem_append_left _ null)
  · exact fun a member => Mem.loadNext_live (linked.live a (List.mem_append_left _ member))
  · have length := linked.length_le
    rw [List.length_append] at length
    omega

-----------------------------------------------------------------------------------------
-- add_msg
-----------------------------------------------------------------------------------------

/-- add_msg makes its message the head of an empty list, and the link of the last node of another
one.
-/
theorem addMsg_cases {sh : Shared cfg} {nodes : List Addr} (linked : Linked sh nodes) (m : Addr)
    : (nodes = [] ∧ addMsg sh m = some (sh.withQueue m sh.k.mem))
      ∨ ∃ front last mem, nodes = front ++ [last]
          ∧ sh.k.mem.store last (fun node => { node with next := m }) = some mem
          ∧ addMsg sh m = some (sh.withQueue sh.g.gHead mem) := by
  have whole : Linked sh (nodes ++ []) := by rwa [List.append_nil]
  have ends : walk sh.k.mem.loadNext 0 (fun _ => false) sh.k.mem.live.card 0 sh.g.gHead
      = some (nodes.getLastD 0, 0) :=
    whole.walk linked.chain.segment (by simp) (Or.inl rfl)
  rcases List.eq_nil_or_concat nodes with rfl | ⟨front, last, rfl⟩
  · exact Or.inl ⟨rfl, by simp [addMsg, ends, Shared.withQueue]⟩
  · rw [List.concat_eq_append] at *
    have lastNonnull : last ≠ 0 := by
      rintro rfl
      exact linked.chain.proper (by simp)
    obtain ⟨mem, stored, _⟩ := Mem.store_next (linked.live last (by simp)) m
    refine Or.inr ⟨front, last, mem, rfl, stored, ?_⟩
    simp [addMsg, ends, lastNonnull, stored, Shared.withQueue]

/-- add_msg appends a live node that is not in the list and has no link yet. -/
theorem addMsg_linked {sh : Shared cfg} {nodes : List Addr} {m : Addr} (linked : Linked sh nodes)
    (fresh : m ∉ nodes) (nonnull : m ≠ 0) (live : m ∈ sh.k.mem.live)
    (terminated : sh.k.mem.next m = 0)
    : ∃ head mem, addMsg sh m = some (sh.withQueue head mem)
        ∧ sh.k.mem.Relinked mem ∧ Linked (sh.withQueue head mem) (nodes ++ [m]) := by
  rcases addMsg_cases linked m with ⟨rfl, added⟩ | ⟨front, last, mem, rfl, stored, added⟩
  · refine ⟨m, sh.k.mem, added, .refl _, ⟨Chain.single nonnull terminated, ?_⟩⟩
    exact List.forall_mem_singleton.mpr live
  · obtain ⟨_, stored', relinked, next⟩ := Mem.store_next (linked.live last (by simp)) m
    cases stored.symm.trans stored'
    refine ⟨sh.g.gHead, mem, added, relinked, ⟨?_, ?_⟩⟩
    · have different : m ≠ last := by
        rintro rfl
        exact fresh (by simp)
      refine linked.chain.link nonnull fresh ?_ ?_ ?_
      · simp [Shared.withQueue, next]
      · simpa [Shared.withQueue, next, different] using terminated
      · intro other notLast _
        simp [Shared.withQueue, next, notLast]
    · intro a member
      show a ∈ mem.live
      rw [relinked.live]
      rcases List.mem_append.mp member with old | new
      · exact linked.live a old
      · rwa [List.mem_singleton.mp new]

-----------------------------------------------------------------------------------------
-- remove_delete_msg
-----------------------------------------------------------------------------------------

/-- Unlinking a node of the list takes exactly this node out, wherever it stands. -/
theorem unlinkMsg_linked {sh : Shared cfg} {front back : List Addr} {m : Addr}
    (linked : Linked sh (front ++ m :: back))
    : ∃ head mem, unlinkMsg sh (front.getLastD 0) m = some (sh.withQueue head mem)
        ∧ sh.k.mem.Relinked mem ∧ Linked (sh.withQueue head mem) (front ++ back) := by
  have nodup := linked.chain.nodup
  have link := Mem.loadNext_live (linked.live m (by simp))
  rcases List.eq_nil_or_concat front with rfl | ⟨before, prev, rfl⟩
  · -- The node is the first one: `g_head` moves on.
    obtain ⟨first, _, rest⟩ := chain_cons.mp linked.chain
    refine ⟨sh.k.mem.next m, sh.k.mem, ?_, .refl _, ⟨rest, ?_⟩⟩
    · simp [unlinkMsg, link, first, Shared.withQueue]
    · exact fun a member => linked.live a (by simp_all)
  · -- The node has a predecessor, whose link is redirected around it.
    rw [List.concat_eq_append] at *
    have prevNonnull : prev ≠ 0 := by
      rintro rfl
      exact linked.chain.proper (by simp)
    have notFirst : sh.g.gHead ≠ m := by
      intro first
      cases before with
      | nil =>
          obtain ⟨rfl, _⟩ := chain_cons.mp linked.chain
          simp [first] at nodup
      | cons node rest =>
          obtain ⟨rfl, _⟩ := chain_cons.mp linked.chain
          simp [first] at nodup
    obtain ⟨mem, stored, relinked, next⟩ :=
      Mem.store_next (linked.live prev (by simp)) (sh.k.mem.next m)
    refine ⟨sh.g.gHead, mem, ?_, relinked, ⟨?_, ?_⟩⟩
    · simp [unlinkMsg, link, notFirst, prevNonnull, stored, Shared.withQueue]
    · refine linked.chain.unlink ?_ ?_
      · simp [Shared.withQueue, next]
      · intro other notPrev
        simp [Shared.withQueue, next, notPrev]
    · intro a member
      show a ∈ mem.live
      rw [relinked.live]
      exact linked.live a (((List.sublist_cons_self m back).append_left _).subset member)

/-- Freeing a message neither reads nor writes the interrupt state. -/
theorem freeMsg_intr (sh : Shared cfg) (m : Addr) (intr : Bool)
    : freeMsg { sh with k := { sh.k with intr := intr } } m
      = ({ (freeMsg sh m).1 with k := { (freeMsg sh m).1.k with intr := intr } },
          (freeMsg sh m).2) := by
  unfold freeMsg Kernel.sceKernelFreeVpl
  by_cases pool : sh.k.vpls sh.g.gVplid = false
  · simp [pool, sceErrorKernelNotFoundVpool]
  · by_cases live : m ∈ sh.k.mem.live ∧ (sh.k.mem.block m).vpl = sh.g.gVplid
    · simp [pool, live, Shared.note]
    · simp [pool, live, sceErrorKernelIllegalMemblock]

/-- The interrupt state is kept by freeing. -/
theorem freeMsg_keeps_intr (sh : Shared cfg) (m : Addr)
    : (freeMsg sh m).1.k.intr = sh.k.intr := by
  have same := congrArg (fun freed => freed.1.k.intr) (freeMsg_intr sh m sh.k.intr)
  exact same

/-- remove_delete_msg on a node of the list unlinks this node and then frees it. The
interrupt state on return is that on entry.
-/
theorem removeDeleteMsg_linked {sh : Shared cfg} {front back : List Addr} {m : Addr}
    (linked : Linked sh (front ++ m :: back))
    : ∃ head mem, removeDeleteMsg sh m = some (freeMsg (sh.withQueue head mem) m)
        ∧ sh.k.mem.Relinked mem ∧ Linked (sh.withQueue head mem) (front ++ back) := by
  have nonempty : sh.g.gHead ≠ 0 := by
    rw [ne_eq, linked.chain.head_eq_null]
    simp
  have nonnull : m ≠ 0 := by
    rintro rfl
    exact linked.chain.proper (by simp)
  obtain ⟨middle, segment, same, _⟩ := segment_append.mp linked.chain.segment
  obtain rfl : m = middle := same.symm
  have absent : ∀ a ∈ front, decide (a = m) = false := by
    intro a member
    have apart := (List.nodup_append.mp linked.chain.nodup).2.2 a member m (by simp)
    simpa using apart
  have found : walk sh.k.mem.loadNext 0 (fun cur => decide (cur = m)) sh.k.mem.live.card 0
      sh.g.gHead = some (front.getLastD 0, m) :=
    linked.walk segment absent (Or.inr (by simp))
  -- Interrupts are off while the list is changed.
  let masked : Shared cfg := { sh with k := { sh.k with intr := false } }
  have linked' : Linked masked (front ++ m :: back) := ⟨linked.chain, linked.live⟩
  obtain ⟨head, mem, unlinked, relinked, rest⟩ := unlinkMsg_linked linked'
  refine ⟨head, mem, ?_, relinked, ⟨rest.chain, rest.live⟩⟩
  have unlinked' : unlinkMsg masked (front.getLastD 0) m
      = some { sh.withQueue head mem with k := { (sh.withQueue head mem).k with intr := false } } :=
    unlinked
  have restored : (freeMsg (sh.withQueue head mem) m).1.k.intr = sh.k.intr :=
    freeMsg_keeps_intr (sh.withQueue head mem) m
  simp only [removeDeleteMsg, nonempty, if_false, Kernel.sceKernelCpuSuspendIntr,
    Option.bind_eq_bind, found, Option.bind_some, nonnull]
  rw [show unlinkMsg _ _ _ = _ from unlinked']
  simp only [Option.bind_some, freeMsg_intr, Kernel.sceKernelCpuResumeIntrWithSync,
    ← restored]
  rfl

-----------------------------------------------------------------------------------------
-- new_msg
-----------------------------------------------------------------------------------------

/-- strncpy stores exactly as many bytes as it is told. -/
theorem strncpy_length (src : List Byte) (n : Nat) : (strncpy src n).length = n := by
  have short : ((src.take n).takeWhile (· ≠ 0)).length ≤ n :=
    (List.takeWhile_sublist _).length_le.trans (by simp)
  simp only [strncpy, List.length_append, List.length_replicate]
  omega

/-- The sizes of a message that the Kprintf handler accepts do not wrap around. -/
theorem kprintfMsgSize_toNat {len : U32} (fits : len.toNat < cfg.kprintfBufsz)
    : (kprintfMsgSize len).toNat = len.toNat + 16
      ∧ (sizeofKprintfMsg len).toNat = len.toNat + 28 := by
  have bound := cfg.bufsz_fits
  constructor <;> simp [kprintfMsgSize, sizeofKprintfMsg, BitVec.toNat_add] <;> omega

/-- The contents of a new message of a length that the Kprintf handler accepts: the copied text
and 16 zeros, which fill the block.
-/
theorem fillMsg_eq {len : U32} (fits : len.toNat < cfg.kprintfBufsz) (msg : List Byte)
    (isUser : Int)
    : fillMsg msg len isUser
      = some
          { next := 0
            isUser := isUser
            len := len.setWidth 16
            size := (kprintfMsgSize len).setWidth 16
            msg := strncpy msg len.toNat ++ List.replicate 16 0 } := by
  obtain ⟨_, size⟩ := kprintfMsgSize_toNat fits
  have room : (zeroedMsg (sizeofKprintfMsg len).toNat).msg = List.replicate (len.toNat + 16) 0 := by
    simp only [zeroedMsg, size]
    congr 1
  have length := strncpy_length msg len.toNat
  have copied : storeBytes (List.replicate (len.toNat + 16) 0) 0 (strncpy msg len.toNat)
      = some (strncpy msg len.toNat ++ List.replicate 16 0) := by
    simp [storeBytes, length]
  have terminated : storeBytes (strncpy msg len.toNat ++ List.replicate 16 0) len.toNat [0]
      = some (strncpy msg len.toNat ++ List.replicate 16 0) := by
    simp only [storeBytes, List.length_append, length, List.length_replicate, List.length_singleton]
    rw [if_pos (by omega), List.take_left' length, List.drop_append, length]
    have past : List.drop (len.toNat + 1) (strncpy msg len.toNat) = [] :=
      List.drop_eq_nil_of_le (by omega)
    simp [past, List.replicate_succ]
  simp only [fillMsg, room, Option.bind_eq_bind, copied, Option.bind_some, terminated]
  rfl

/-- new_msg stays inside its block for every length that the Kprintf handler accepts, and
leaves it without a link.
-/
theorem fillMsg_fits {len : U32} (fits : len.toNat < cfg.kprintfBufsz) (msg : List Byte)
    (isUser : Int)
    : ∃ contents, fillMsg msg len isUser = some contents ∧ contents.next = 0 :=
  ⟨_, fillMsg_eq fits msg isUser, rfl⟩

-----------------------------------------------------------------------------------------
-- The whole queue
-----------------------------------------------------------------------------------------

/-- The list that starts at `g_head` has these nodes, and they are exactly the live blocks,
all of them taken from the pool `g_vplid`.
-/
structure Queue (sh : Shared cfg) (nodes : List Addr) : Prop where
  chain : Chain sh.k.mem.next 0 sh.g.gHead nodes
  live : ∀ a, a ∈ sh.k.mem.live ↔ a ∈ nodes
  pool : ∀ a ∈ nodes, (sh.k.mem.block a).vpl = sh.g.gVplid

/-- A queue is a list of live nodes. -/
theorem Queue.linked {sh : Shared cfg} {nodes : List Addr} (queue : Queue sh nodes)
    : Linked sh nodes :=
  ⟨queue.chain, fun a member => (queue.live a).mpr member⟩

/-- The queue is empty exactly when `g_head` is `NULL`. -/
theorem Queue.head_eq_null {sh : Shared cfg} {nodes : List Addr} (queue : Queue sh nodes)
    : sh.g.gHead = 0 ↔ nodes = [] :=
  queue.chain.head_eq_null

/-- There are as many queued messages as live blocks. -/
theorem Queue.card {sh : Shared cfg} {nodes : List Addr} (queue : Queue sh nodes)
    : sh.k.mem.live.card = nodes.length := by
  have same : sh.k.mem.live = nodes.toFinset := by
    ext a
    rw [queue.live, List.mem_toFinset]
  rw [same, List.toFinset_card_of_nodup queue.chain.nodup]

/-- What the history says of the message in a block. -/
def Mem.entry (mem : Mem) (a : Addr) : Nat × MsgBody :=
  ((mem.block a).stamp, (mem.block a).msg.toMsgBody)

/-- How an accepted Kprintf call appends the message `m`: the list is one node longer, the
old nodes keep their messages, and the history notes the message under the next number.
-/
structure Appends (sh sh' : Shared cfg) (nodes : List Addr) (m : Addr) : Prop where
  started : sh.g.gState = .started
  history
    : sh'.history
      = sh.history ++ [.accepted (accepted sh.history).length (sh'.k.mem.entry m).2]
  fresh : m ∉ nodes
  queue : Queue sh' (nodes ++ [m])
  kept : ∀ a ∈ nodes, sh'.k.mem.entry a = sh.k.mem.entry a
  stamp : (sh'.k.mem.entry m).1 = (accepted sh.history).length

/-- The state in which add_msg runs: the new block is live but not linked. -/
def Shared.withMsg (sh : Shared cfg) (m : Addr) (contents : KprintfMsg) : Shared cfg :=
  { sh with
    k :=
      { sh.k with
        mem := sh.k.mem.allocate m ⟨sh.g.gVplid, (accepted sh.history).length, contents⟩ } }

/-- There the list is as before. -/
theorem Queue.withMsg {sh : Shared cfg} {nodes : List Addr} {m : Addr} (queue : Queue sh nodes)
    (fresh : m ∉ nodes) (contents : KprintfMsg)
    : Linked (sh.withMsg m contents) nodes := by
  have apart (a : Addr) (member : a ∈ nodes) : a ≠ m := by
    rintro rfl
    exact fresh member
  refine ⟨queue.chain.congr fun a member => ?_, fun a member => ?_⟩
  · simp [Shared.withMsg, Mem.next, Mem.allocate, apart a member]
  · simp [Shared.withMsg, Mem.allocate, (queue.live a).mpr member]

section Handles

variable {sh : Shared cfg} {call : KprintfCall cfg}

/-- The Kprintf handler looks at nothing in a module that is not started, or for a length that it
does not accept.
-/
theorem kprintfHandler_refuses
    (refused
      : sh.g.gState ≠ .started ∨ call.len.toInt ≤ 0 ∨ call.len.toNat ≥ cfg.kprintfBufsz)
    : kprintfHandler sh call = some (sh, 0) := by
  by_cases started : sh.g.gState = .started
  · simp only [kprintfHandler, started, not_true, ne_eq, if_false]
    rw [if_pos (refused.resolve_left (not_not.mpr started))]
  · simp [kprintfHandler, started]

/-- Without memory it answers the code of the allocator. -/
theorem kprintfHandler_outOfMemory {code : Int} (started : sh.g.gState = .started)
    (accepts : ¬ (call.len.toInt ≤ 0 ∨ call.len.toNat ≥ cfg.kprintfBufsz))
    (answer : call.answer = .error code)
    : kprintfHandler sh call = some (sh, code) := by
  simp only [kprintfHandler, started, not_true, ne_eq, if_false, accepts, newMsg, answer,
    Option.bind_eq_bind, Option.bind_some]
  rfl

/-- With memory it links the new message, sets EV_FLUSH, and answers the length. -/
theorem kprintfHandler_accepts {m : Addr} {contents : KprintfMsg} {linked : Shared cfg}
    (started : sh.g.gState = .started)
    (accepts : ¬ (call.len.toInt ≤ 0 ∨ call.len.toNat ≥ cfg.kprintfBufsz))
    (answer : call.answer = .ok m)
    (filled : fillMsg call.buf.toList call.len call.isUser = some contents)
    (added : addMsg (sh.withMsg m contents) m = some linked)
    : kprintfHandler sh call
      = some
          ((linked.setEventFlag evFlush).note
              (.accepted (accepted sh.history).length contents.toMsgBody),
            call.len.toInt) := by
  have new : newMsg sh call.buf.toList call.len call.isUser (.ok m)
      = some (sh.withMsg m contents, .ok m) := by
    simp only [newMsg, filled, Option.bind_eq_bind, Option.bind_some]
    rfl
  have block : (sh.withMsg m contents).k.mem.block m
      = ⟨sh.g.gVplid, (accepted sh.history).length, contents⟩ := by
    simp [Shared.withMsg, Mem.allocate]
  simp only [kprintfHandler, started, ne_eq, not_true, if_false, accepts, answer, new,
    Option.bind_eq_bind, Option.bind_some, added, block]
  rfl

end Handles

/-- An accepted message is appended. -/
theorem kprintfHandler_ok {sh : Shared cfg} {nodes : List Addr} {call : KprintfCall cfg} {m : Addr}
    (queue : Queue sh nodes) (started : sh.g.gState = .started)
    (accepts : ¬ (call.len.toInt ≤ 0 ∨ call.len.toNat ≥ cfg.kprintfBufsz))
    (answer : call.answer = .ok m) (nonnull : m ≠ 0) (unused : m ∉ sh.k.mem.live)
    : ∃ sh', kprintfHandler sh call = some (sh', call.len.toInt) ∧ Appends sh sh' nodes m := by
  have fresh : m ∉ nodes := fun member => unused ((queue.live m).mpr member)
  have fits : call.len.toNat < cfg.kprintfBufsz := not_le.mp (not_or.mp accepts).2
  obtain ⟨contents, filled, noLink⟩ := fillMsg_fits fits call.buf.toList call.isUser
  have apart (a : Addr) (member : a ∈ nodes) : a ≠ m := by
    rintro rfl
    exact fresh member
  obtain ⟨head, mem, added, relinked, linked⟩ :=
    addMsg_linked (queue.withMsg fresh contents) fresh nonnull
      (by simp [Shared.withMsg, Mem.allocate])
      (by simpa [Shared.withMsg, Mem.next, Mem.allocate] using noLink)
  have entry : mem.entry m = ((accepted sh.history).length, contents.toMsgBody) := by
    simp [Mem.entry, relinked.stamp, relinked.body, Shared.withMsg, Mem.allocate]
  refine ⟨_, kprintfHandler_accepts started accepts answer filled added,
    started, ?_, fresh, ⟨?_, ?_, ?_⟩, ?_, ?_⟩
  · simp [entry, Shared.withMsg]
  · simpa using linked.chain
  · intro a
    simp [relinked.live, Shared.withMsg, Mem.allocate, queue.live, or_comm]
  · intro a member
    simp only [Shared.note_g, Shared.note_k, Shared.setEventFlag_g, Shared.setEventFlag_mem,
      Shared.withQueue_gVplid, Shared.withQueue_mem, relinked.vpl]
    rcases List.mem_append.mp member with old | new
    · simpa [Shared.withMsg, Mem.allocate, apart a old] using queue.pool a old
    · obtain rfl := List.mem_singleton.mp new
      simp [Shared.withMsg, Mem.allocate]
  · intro a member
    simp [Mem.entry, relinked.stamp, relinked.body, Shared.withMsg, Mem.allocate, apart a member]
  · simp [entry]

/-- Whatever the allocator may answer, the Kprintf handler either refuses the message without
any effect, or appends it.
-/
theorem kprintfHandler_appends {sh : Shared cfg} {nodes : List Addr} {call : KprintfCall cfg}
    (queue : Queue sh nodes) (may : sh.k.MayAllocate sh.g.gVplid call.answer)
    : ∃ sh' ret, kprintfHandler sh call = some (sh', ret)
        ∧ (sh' = sh ∨ ∃ m, Appends sh sh' nodes m) := by
  by_cases started : sh.g.gState = .started
  swap
  · exact ⟨sh, 0, kprintfHandler_refuses (Or.inl started), Or.inl rfl⟩
  by_cases refused : call.len.toInt ≤ 0 ∨ call.len.toNat ≥ cfg.kprintfBufsz
  · exact ⟨sh, 0, kprintfHandler_refuses (Or.inr refused), Or.inl rfl⟩
  cases answer : call.answer with
  | error code => exact ⟨sh, code, kprintfHandler_outOfMemory started refused answer, Or.inl rfl⟩
  | ok m =>
      simp only [Kernel.MayAllocate, answer] at may
      obtain ⟨pool, nonnull, unused⟩ := may
      obtain ⟨sh', handled, appends⟩ := kprintfHandler_ok queue started refused answer nonnull unused
      exact ⟨sh', _, handled, Or.inr ⟨m, appends⟩⟩

/-- Freeing a live block of the live pool succeeds, and the history notes it. -/
theorem freeMsg_live {sh : Shared cfg} {m : Addr} (live : m ∈ sh.k.mem.live)
    (vpl : (sh.k.mem.block m).vpl = sh.g.gVplid) (pool : sh.k.vpls sh.g.gVplid = true)
    : freeMsg sh m
      = ((sh.withQueue sh.g.gHead (sh.k.mem.release m)).note (.freed (sh.k.mem.entry m).1), 0) := by
  simp [freeMsg, Kernel.sceKernelFreeVpl, live, vpl, pool, Shared.withQueue, Mem.entry]

/-- How remove_delete_msg takes the message `m` out of a queue: first the list loses exactly
this node, then its block is freed, which the history notes.
-/
structure Removes (sh sh' : Shared cfg) (nodes : List Addr) (m : Addr) : Prop where
  shape
    : ∃ unlinked : Shared cfg, Linked unlinked nodes ∧ m ∉ nodes ∧ freeMsg unlinked m = (sh', 0)
  queue : Queue sh' nodes
  kept : ∀ a ∈ nodes, sh'.k.mem.entry a = sh.k.mem.entry a
  history : sh'.history = sh.history ++ [.freed (sh.k.mem.entry m).1]

/-- remove_delete_msg on a node of the queue removes it, wherever it stands. -/
theorem removeDeleteMsg_removes {sh : Shared cfg} {front back : List Addr} {m : Addr}
    (queue : Queue sh (front ++ m :: back)) (pool : sh.k.vpls sh.g.gVplid = true)
    : ∃ sh', removeDeleteMsg sh m = some (sh', 0) ∧ Removes sh sh' (front ++ back) m := by
  obtain ⟨head, mem, removed, relinked, linked⟩ := removeDeleteMsg_linked queue.linked
  have absent : m ∉ front ++ back := (List.nodup_middle.mp queue.chain.nodup).notMem
  have live : m ∈ mem.live := by
    rw [relinked.live]
    exact (queue.live m).mpr (by simp)
  have freed : freeMsg (sh.withQueue head mem) m
      = ((sh.withQueue head (mem.release m)).note (.freed (mem.entry m).1), 0) :=
    freeMsg_live live ((relinked.vpl m).trans (queue.pool m (by simp))) pool
  have entry (a : Addr) : mem.entry a = sh.k.mem.entry a := by
    simp [Mem.entry, relinked.stamp, relinked.body]
  have member (a : Addr) (rest : a ∈ front ++ back) : a ∈ front ++ m :: back :=
    ((List.sublist_cons_self m back).append_left _).subset rest
  refine ⟨_, removed.trans (congrArg some freed), ?_⟩
  refine ⟨⟨_, linked, absent, freed⟩, ⟨linked.chain, ?_, ?_⟩, fun a _ => entry a, ?_⟩
  · intro a
    simp only [Shared.note_k, Shared.withQueue_mem, Mem.release, Finset.mem_erase,
      relinked.live, queue.live, List.mem_append, List.mem_cons]
    constructor
    · rintro ⟨different, before | same | after⟩
      · exact Or.inl before
      · exact absurd same different
      · exact Or.inr after
    · intro rest
      refine ⟨?_, by tauto⟩
      rintro rfl
      exact absent (List.mem_append.mpr rest)
  · intro a rest
    simpa [Mem.release, relinked.vpl] using queue.pool a (member a rest)
  · simp [entry]

end LibKprintf
