import LibKprintf.Queue.Delivery

/-! What the queue guarantees to those who print and to the memory pool, in every reachable
state of a session and under every interleaving.
-/

namespace LibKprintf

open Foundation

variable {cfg : Config}

/-- The stamps of the queued messages, in order. -/
def Mem.stamps (mem : Mem) (nodes : List Addr) : List Nat :=
  nodes.map (fun a => (mem.entry a).1)

/-- The messages of a consistent history have been numbered without repetition. -/
theorem Delivery.stamps_nodup {sh : Shared cfg} {pc : EventPc} {nodes : List Addr}
    (delivery : Delivery sh pc nodes)
    : ((accepted sh.history).map Prod.fst).Nodup := by
  rw [delivery.numbered]
  exact List.nodup_range

/-- The queued messages are the accepted ones that have not been freed. -/
theorem Delivery.stamps_eq {sh : Shared cfg} {pc : EventPc} {nodes : List Addr}
    (delivery : Delivery sh pc nodes)
    : sh.k.mem.stamps nodes
      = ((accepted sh.history).map Prod.fst).filter (fun stamp => stamp ∉ freed sh.history) := by
  have unique := delivery.stamps_nodup
  rw [delivery.removed] at unique ⊢
  obtain ⟨_, _, apart⟩ := List.nodup_append.mp unique
  have gone : (freed sh.history).filter (fun stamp => stamp ∉ freed sh.history) = [] := by
    simp
  have kept : (sh.k.mem.stamps nodes).filter (fun stamp => stamp ∉ freed sh.history)
      = sh.k.mem.stamps nodes := by
    refine List.filter_eq_self.mpr fun stamp queued => ?_
    simpa using fun again => apart stamp again stamp queued rfl
  rw [List.filter_append, gone, List.nil_append]
  exact kept.symm

/-- Exactly-once, in-order delivery: the messages passed to the handlers are a prefix of the
accepted ones, none is passed twice, and the list that starts at `g_head` holds exactly the
accepted messages that have not been removed, in the order of acceptance.
-/
theorem delivery_in_order {s : State cfg} (reach : (machine cfg).Reachable SingleSession s)
    : delivered s.sh.history <+: accepted s.sh.history
      ∧ ((delivered s.sh.history).map Prod.fst).Nodup
      ∧ ∃ nodes, Chain s.sh.k.mem.next 0 s.sh.g.gHead nodes
          ∧ s.sh.k.mem.stamps nodes
            = ((accepted s.sh.history).map Prod.fst).filter
                (fun stamp => stamp ∉ freed s.sh.history) := by
  obtain ⟨_, nodes, delivery⟩ := delivery reach
  have inOrder : delivered s.sh.history <+: accepted s.sh.history := ⟨_, delivery.passed⟩
  refine ⟨inOrder, ?_, nodes, delivery.queue.chain, delivery.stamps_eq⟩
  exact delivery.stamps_nodup.sublist (inOrder.map Prod.fst).sublist

/-- Witness: a run in which one of two accepted messages has been passed on. -/
theorem delivery_in_order_run
    : ∃ s : State .shipped,
        ((accepted s.sh.history).length = 2 ∧ (delivered s.sh.history).length = 1)
        ∧ delivered s.sh.history <+: accepted s.sh.history := by
  have done : ((machine .shipped).run SingleSession (machine .shipped).init
      (loopRun ++ kprintfRun 100 ++ kprintfRun 200 ++ eventRun 6)).any
      (fun s => (accepted s.sh.history).length = 2 ∧ (delivered s.sh.history).length = 1)
      = true := by
    decide +kernel
  obtain ⟨s, reach, counts⟩ := System.exists_of_run done
  exact ⟨s, by simpa using counts, (delivery_in_order reach).1⟩

/-- Memory safety of the queue. Nothing has left live memory; the list from `g_head` is
acyclic, ends at `NULL`, and its nodes are the live blocks of `g_vplid`, among them, in front,
the nodes in the local variables of the event thread; a block is freed once, when its node has
been unlinked, and not before.
-/
structure QueueSafe (s : State cfg) (nodes : List Addr) : Prop where
  running : s.crashed = false
  chain : Chain s.sh.k.mem.next 0 s.sh.g.gHead nodes
  acyclic : nodes.Nodup
  live : ∀ a, a ∈ nodes ↔ a ∈ s.sh.k.mem.live
  pool : ∀ a ∈ s.sh.k.mem.live, (s.sh.k.mem.block a).vpl = s.sh.g.gVplid
  locals : (s.threads s.sh.g.gThid).known <+: nodes
  freedOnce : (freed s.sh.history).Nodup
  freedOrLive
    : ∀ stamp, stamp ∈ (accepted s.sh.history).map Prod.fst ↔
        stamp ∈ freed s.sh.history ∨ stamp ∈ s.sh.k.mem.stamps nodes
  notBoth : ∀ stamp ∈ freed s.sh.history, stamp ∉ s.sh.k.mem.stamps nodes
  unlinkedFirst
    : ∀ ev m n, s.threads s.sh.g.gThid = .flush ev (.remove m n) →
        ∃ sh' rest, nodes = m :: rest ∧ removeDeleteMsg s.sh m = some (sh', 0)
          ∧ Removes s.sh sh' rest m

/-- Every reachable state is memory safe; the event thread's next removal is justified by the
specification of remove_delete_msg.
-/
theorem queue_safe {s : State cfg} (reach : (machine cfg).Reachable SingleSession s)
    : ∃ nodes, QueueSafe s nodes := by
  obtain ⟨running, nodes, delivery⟩ := delivery reach
  have unique := delivery.stamps_nodup
  rw [delivery.removed] at unique
  obtain ⟨freedOnce, _, apart⟩ := List.nodup_append.mp unique
  refine ⟨nodes,
    { running := running
      chain := delivery.queue.chain
      acyclic := delivery.queue.chain.nodup
      live := fun a => (delivery.queue.live a).symm
      pool := fun a live => delivery.queue.pool a ((delivery.queue.live a).mp live)
      locals := delivery.known
      freedOnce := freedOnce
      freedOrLive := ?_
      notBoth := fun stamp gone queued => apart stamp gone stamp queued rfl
      unlinkedFirst := ?_ }⟩
  · intro stamp
    rw [delivery.removed, List.mem_append]
    rfl
  · intro ev m n place
    have inside : s.loader.inSession = true := by
      by_contra outside
      have early := (starting reach (by simpa using outside)).before.early s.sh.g.gThid
      simp [place, EventPc.early] at early
    rw [place] at delivery
    obtain ⟨rest, rfl, _⟩ := delivery.removing
    have queue : Queue s.sh ([] ++ m :: rest) := delivery.queue
    obtain ⟨sh', removed, removes⟩ := removeDeleteMsg_removes queue (session reach inside).vpl
    exact ⟨sh', rest, rfl, removed, removes⟩

/-- Witness: a run that is about to remove the first of two messages. -/
theorem queue_safe_run
    : ∃ s : State .shipped,
        s.threads 13 = .flush 1 (.remove 100 200) ∧ ∃ nodes, QueueSafe s nodes := by
  have done : ((machine .shipped).run SingleSession (machine .shipped).init
      (loopRun ++ kprintfRun 100 ++ kprintfRun 200 ++ eventRun 7
        ++ [.event 13 (.ret 0 3 (List.replicate 19 66))] ++ eventRun 8)).any
      (fun s => s.threads 13 = .flush 1 (.remove 100 200)) = true := by
    decide +kernel
  obtain ⟨s, reach, place⟩ := System.exists_of_run done
  exact ⟨s, by simpa using place, queue_safe reach⟩

end LibKprintf
