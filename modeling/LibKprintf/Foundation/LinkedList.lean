import Mathlib.Data.List.Nodup
import Mathlib.Data.Finset.Card

/-! Singly linked lists threaded through a memory by a successor function.
The memory itself stays abstract: a list is described by the nodes that following the
successors visits, so one description serves every layout of the nodes.
-/

namespace LibKprintf.Foundation

variable {Node : Type*}

/-- Following `next` from `start` visits exactly `nodes` and then arrives at `stop`. -/
def Segment (next : Node → Node) : Node → List Node → Node → Prop
  | start, [], stop => start = stop
  | start, node :: rest, stop => start = node ∧ Segment next (next node) rest stop

/-- The nodes of a list that starts at `head` and ends at `null`, which is no node. -/
structure Chain (next : Node → Node) (null head : Node) (nodes : List Node) : Prop where
  segment : Segment next head nodes null
  proper : null ∉ nodes

variable {next next' : Node → Node} {null head node last : Node} {nodes : List Node}

/-- Segments compose exactly at an intermediate node; by induction on the first part. -/
theorem segment_append {start stop : Node} {front back : List Node}
    : Segment next start (front ++ back) stop
      ↔ ∃ middle, Segment next start front middle ∧ Segment next middle back stop := by
  induction front generalizing start with
  | nil => simp [Segment]
  | cons node rest ih => simp [Segment, ih, and_assoc]

/-- A segment depends only on the successors of its own nodes; by list induction. -/
theorem Segment.congr {start stop : Node} (segment : Segment next start nodes stop)
    (same : ∀ node ∈ nodes, next' node = next node)
    : Segment next' start nodes stop := by
  induction nodes generalizing start with
  | nil => exact segment
  | cons node rest ih =>
      refine ⟨segment.1, ?_⟩
      rw [same node List.mem_cons_self]
      exact ih segment.2 (fun other member => same other (List.mem_cons_of_mem _ member))

/-- A nonempty segment ends at the successor of its last node. -/
theorem segment_concat {start stop : Node}
    : Segment next start (nodes ++ [last]) stop
      ↔ Segment next start nodes last ∧ next last = stop := by
  rw [segment_append]
  constructor
  · rintro ⟨middle, front, rfl, same⟩
    exact ⟨front, same⟩
  · intro ⟨front, same⟩
    exact ⟨last, front, rfl, same⟩

/-- The chain of an empty list starts at `null`. -/
theorem chain_nil : Chain next null head [] ↔ head = null :=
  ⟨fun chain => chain.segment, fun same => ⟨same, List.not_mem_nil⟩⟩

/-- The chain of a nonempty list starts at its first node and continues behind it. -/
theorem chain_cons {rest : List Node}
    : Chain next null head (node :: rest)
      ↔ head = node ∧ node ≠ null ∧ Chain next null (next node) rest := by
  constructor
  · intro ⟨⟨same, segment⟩, proper⟩
    simp only [List.mem_cons, not_or] at proper
    exact ⟨same, Ne.symm proper.1, segment, proper.2⟩
  · intro ⟨same, nonnull, chain⟩
    refine ⟨⟨same, chain.segment⟩, ?_⟩
    simp only [List.mem_cons, not_or]
    exact ⟨Ne.symm nonnull, chain.proper⟩

/-- A chain is empty exactly when its head is `null`. -/
theorem Chain.head_eq_null (chain : Chain next null head nodes) : head = null ↔ nodes = [] := by
  cases nodes with
  | nil => simpa using chain_nil.mp chain
  | cons node rest =>
      obtain ⟨rfl, nonnull, _⟩ := chain_cons.mp chain
      simp [nonnull]

/-- The head of a chain determines its nodes; by simultaneous induction. -/
theorem Chain.unique {other : List Node} (chain : Chain next null head nodes)
    (chain' : Chain next null head other)
    : nodes = other := by
  induction nodes generalizing head other with
  | nil => exact (chain'.head_eq_null.mp (chain_nil.mp chain)).symm
  | cons node rest ih =>
      obtain ⟨rfl, nonnull, tail⟩ := chain_cons.mp chain
      cases other with
      | nil => exact absurd (chain_nil.mp chain') nonnull
      | cons node' rest' =>
          obtain ⟨rfl, _, tail'⟩ := chain_cons.mp chain'
          rw [ih tail tail']

/-- The nodes of a chain determine its head. -/
theorem Chain.head_unique {next' : Node → Node} {head' : Node}
    (chain : Chain next null head nodes) (chain' : Chain next' null head' nodes)
    : head = head' := by
  cases nodes with
  | nil => exact (chain_nil.mp chain).trans (chain_nil.mp chain').symm
  | cons node rest => exact (chain_cons.mp chain).1.trans (chain_cons.mp chain').1.symm

/-- Behind a node of a chain stands the chain of the later nodes. -/
theorem Chain.drop_front {front rest : List Node}
    (chain : Chain next null head (front ++ node :: rest))
    : Chain next null node (node :: rest) := by
  obtain ⟨middle, _, back⟩ := segment_append.mp chain.segment
  obtain rfl : middle = node := back.1
  refine ⟨back, ?_⟩
  intro member
  exact chain.proper (List.mem_append_right _ member)

/-- A null-terminated list is acyclic: no node occurs twice. A repeated node would start
two chains of different lengths.
-/
theorem Chain.nodup (chain : Chain next null head nodes) : nodes.Nodup := by
  induction nodes generalizing head with
  | nil => exact List.nodup_nil
  | cons node rest ih =>
      obtain ⟨rfl, _, tail⟩ := chain_cons.mp chain
      refine List.nodup_cons.mpr ⟨?_, ih tail⟩
      intro again
      obtain ⟨front, back, split⟩ := List.append_of_mem again
      rw [split] at chain
      rw [← List.cons_append] at chain
      have shorter : Chain next null head (head :: back) := chain.drop_front
      have lengths := congrArg List.length (chain.unique shorter)
      simp only [List.length_cons, List.length_append] at lengths
      omega

/-- A chain depends only on the successors of its own nodes. -/
theorem Chain.congr (chain : Chain next null head nodes)
    (same : ∀ node ∈ nodes, next' node = next node)
    : Chain next' null head nodes :=
  ⟨chain.segment.congr same, chain.proper⟩

/-- Linking a fresh node behind the last node appends it to the chain. -/
theorem Chain.link (chain : Chain next null head (nodes ++ [last])) (nonnull : node ≠ null)
    (fresh : node ∉ nodes ++ [last]) (linked : next' last = node)
    (terminated : next' node = null)
    (same : ∀ other, other ≠ last → other ≠ node → next' other = next other)
    : Chain next' null head (nodes ++ [last] ++ [node]) := by
  have unique := chain.nodup
  rw [List.nodup_append] at unique
  have front : Segment next' head nodes last := by
    refine (segment_concat.mp chain.segment).1.congr ?_
    intro other member
    refine same other ?_ ?_
    · exact unique.2.2 other member last (by simp)
    · rintro rfl
      exact fresh (List.mem_append_left _ member)
  refine ⟨segment_concat.mpr ⟨segment_concat.mpr ⟨front, linked⟩, terminated⟩, ?_⟩
  rw [List.mem_append, not_or]
  exact ⟨chain.proper, by simpa using Ne.symm nonnull⟩

/-- Linking a fresh node into the empty chain makes it the only node. -/
theorem Chain.single (nonnull : node ≠ null) (terminated : next node = null)
    : Chain next null node [node] :=
  chain_cons.mpr ⟨rfl, nonnull, chain_nil.mpr terminated⟩

/-- Redirecting the predecessor of a node around it takes exactly this node out. -/
theorem Chain.unlink {rest : List Node}
    (chain : Chain next null head (nodes ++ [last] ++ node :: rest))
    (redirected : next' last = next node)
    (same : ∀ other, other ≠ last → next' other = next other)
    : Chain next' null head (nodes ++ [last] ++ rest) := by
  have unique := chain.nodup
  rw [List.nodup_append, List.nodup_append] at unique
  obtain ⟨⟨_, _, apart⟩, _, separate⟩ := unique
  obtain ⟨middle, before, back⟩ := segment_append.mp chain.segment
  obtain ⟨front, _⟩ := segment_concat.mp before
  refine ⟨segment_append.mpr ⟨next node, segment_concat.mpr ⟨?_, redirected⟩, ?_⟩, ?_⟩
  · exact front.congr (fun other member =>
      same other (apart other member last (by simp)))
  · refine back.2.congr (fun other member => same other ?_)
    rintro rfl
    exact separate other (by simp) other (by simp [member]) rfl
  · have proper := chain.proper
    simp only [List.mem_append, List.mem_cons, not_or] at proper ⊢
    exact ⟨proper.1, proper.2.2⟩

-----------------------------------------------------------------------------------------
-- The trailing-pointer walk
-----------------------------------------------------------------------------------------

/-- The loop `while (cur) { if (found cur) break; prev = cur; cur = next cur; }` over a
partial successor function. It answers the final `(prev, cur)`, and `none` for a bad
dereference or when the budget runs out, which on a finite list means a cycle.
-/
def walk [DecidableEq Node] (next : Node → Option Node) (null : Node) (found : Node → Bool)
    : Nat → Node → Node → Option (Node × Node)
  | 0, prev, cur => if cur = null ∨ found cur then some (prev, cur) else none
  | budget + 1, prev, cur =>
      if cur = null ∨ found cur then
        some (prev, cur)
      else
        (next cur).bind (walk next null found budget cur ·)

/-- The walk follows a segment of live nodes it does not look for, and stops at its end
with the last of them as the predecessor; by induction on the segment.
-/
theorem walk_segment [DecidableEq Node] {deref : Node → Option Node} {found : Node → Bool}
    {budget : Nat} {prev stop : Node} (segment : Segment next head nodes stop)
    (proper : null ∉ nodes) (live : ∀ node ∈ nodes, deref node = some (next node))
    (absent : ∀ node ∈ nodes, found node = false) (halts : stop = null ∨ found stop = true)
    (enough : nodes.length ≤ budget)
    : walk deref null found budget prev head = some (nodes.getLastD prev, stop) := by
  induction nodes generalizing budget prev head with
  | nil =>
      obtain rfl : head = stop := segment
      cases budget <;> simp [walk, halts]
  | cons node rest ih =>
      obtain ⟨rfl, tail⟩ := segment
      simp only [List.mem_cons, not_or] at proper
      have nonnull : head ≠ null := Ne.symm proper.1
      have missed := absent head List.mem_cons_self
      cases budget with
      | zero => simp at enough
      | succ budget =>
          have later : walk deref null found budget head (next head)
              = some (rest.getLastD head, stop) :=
            ih tail proper.2
              (fun node member => live node (List.mem_cons_of_mem _ member))
              (fun node member => absent node (List.mem_cons_of_mem _ member))
              (by simpa using enough)
          simp only [walk, nonnull, missed, Bool.false_eq_true, or_self, if_false,
            live head List.mem_cons_self, Option.bind_some, later, List.getLastD_cons]

end LibKprintf.Foundation
