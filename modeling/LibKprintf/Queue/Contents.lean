import LibKprintf.Handlers.Flush
import LibKprintf.Queue.Acceptance

/-! What an accepted Kprintf call puts into its message, down to the single stores of new_msg, and
when these are the bytes that vsnprintf has formatted.
-/

namespace LibKprintf

open Foundation

variable {cfg : Config}

/-- The bytes of a number, the lowest first. -/
def leBytes : Nat → Nat → List Byte
  | 0, _ => []
  | width + 1, value => BitVec.ofNat 8 value :: leBytes width (value / 256)

@[simp] theorem leBytes_length (width value : Nat) : (leBytes width value).length = width := by
  induction width generalizing value with
  | zero => rfl
  | succ width ih => simp [leBytes, ih]

/-- A message as its block holds it: 12 bytes of fixed members, and the text. -/
def KprintfMsg.layout (m : KprintfMsg) : List Byte :=
  leBytes 4 m.next ++ leBytes 4 (BitVec.ofInt 32 m.isUser).toNat ++ leBytes 2 m.len.toNat
    ++ leBytes 2 m.size.toNat ++ m.msg

/-- Bytes that are stored from an offset of a block on. -/
structure Store where
  offset : Nat
  bytes : List Byte

/-- The stores of new_msg, in the order of its statements. -/
def newMsgStores (msg : List Byte) (len : U32) (isUser : Int) : List Store :=
  [⟨0, List.replicate (sizeofKprintfMsg len).toNat 0⟩,
    ⟨0, leBytes 4 0⟩,
    ⟨4, leBytes 4 (BitVec.ofInt 32 isUser).toNat⟩,
    ⟨8, leBytes 2 (len.setWidth 16 : U16).toNat⟩,
    ⟨10, leBytes 2 ((kprintfMsgSize len).setWidth 16 : U16).toNat⟩,
    ⟨12, strncpy msg len.toNat⟩,
    ⟨12 + len.toNat, [0]⟩]

/-- Carry out stores; none when one of them is not inside the block. -/
def runStores (block : List Byte) (stores : List Store) : Option (List Byte) :=
  stores.foldlM (fun block store => storeBytes block store.offset store.bytes) block

/-- A store of bytes where the zeros begin. -/
theorem storeBytes_zeros {done bytes : List Byte} {offset count : Nat} (left : Nat)
    (place : done.length = offset) (room : count = bytes.length + left)
    : storeBytes (done ++ List.replicate count 0) offset bytes
      = some (done ++ bytes ++ List.replicate left 0) := by
  subst place room
  simp [storeBytes, List.drop_append]

/-- The stores of new_msg stay inside a block of the size that it asks for, and leave there the
layout of its message, whatever was in the block.
-/
theorem runStores_newMsg {len : U32} (fits : len.toNat < cfg.kprintfBufsz) (msg : List Byte)
    (isUser : Int) {block : List Byte} (size : block.length = (sizeofKprintfMsg len).toNat)
    : ∃ contents, fillMsg msg len isUser = some contents
        ∧ runStores block (newMsgStores msg len isUser) = some contents.layout := by
  refine ⟨_, fillMsg_eq fits msg isUser, ?_⟩
  have length := strncpy_length msg len.toNat
  have whole := (kprintfMsgSize_toNat fits).2
  have cleared : storeBytes block 0 (List.replicate (sizeofKprintfMsg len).toNat 0)
      = some (List.replicate (len.toNat + 28) 0) := by
    simp [storeBytes, size, whole]
  have next : storeBytes (List.replicate (len.toNat + 28) 0) 0 (leBytes 4 0)
      = some (leBytes 4 0 ++ List.replicate (len.toNat + 24) 0) := by
    simp [storeBytes]
  have second : storeBytes (leBytes 4 0 ++ List.replicate (len.toNat + 24) 0) 4
        (leBytes 4 (BitVec.ofInt 32 isUser).toNat)
      = some (leBytes 4 0 ++ leBytes 4 (BitVec.ofInt 32 isUser).toNat
          ++ List.replicate (len.toNat + 20) 0) :=
    storeBytes_zeros (len.toNat + 20) (by simp) (by simp; omega)
  simp only [runStores, newMsgStores, List.foldlM_cons, List.foldlM_nil, cleared, next, second,
    Option.bind_eq_bind, Option.bind_some]
  rw [storeBytes_zeros (len.toNat + 18) (by simp) (by simp; omega), Option.bind_some,
    storeBytes_zeros (len.toNat + 16) (by simp) (by simp; omega), Option.bind_some,
    storeBytes_zeros 16 (by simp) (by simp [length]), Option.bind_some,
    storeBytes_zeros 15 (by simp [length]; omega) (by simp), Option.bind_some]
  simp [KprintfMsg.layout, List.replicate_succ]

/-- After a NUL there are only NULs in a text. -/
def ZeroAfterNul (text : List Byte) : Prop :=
  ∀ j < text.length, ∀ i < j, text[i]? = some 0 → text[j]? = some 0

instance (text : List Byte) : Decidable (ZeroAfterNul text) :=
  inferInstanceAs (Decidable (∀ j < text.length, ∀ i < j, _ → _))

/-- A text is its part before the first NUL, filled up with NULs, exactly when there are only NULs
after a NUL; by induction on the text.
-/
theorem padded_iff (text : List Byte)
    : text.takeWhile (· ≠ 0) ++ List.replicate (text.length - (text.takeWhile (· ≠ 0)).length) 0
        = text
      ↔ ZeroAfterNul text := by
  induction text with
  | nil => simp [ZeroAfterNul]
  | cons byte rest ih =>
      by_cases nul : byte = 0
      · subst nul
        rw [List.takeWhile_cons_of_neg (by simp), List.nil_append, List.length_nil, Nat.sub_zero,
          List.length_cons, List.replicate_succ, List.cons_eq_cons, eq_self, true_and]
        constructor
        · intro zeros j bound i less _
          rw [← zeros, ← List.replicate_succ, List.getElem?_replicate, if_pos (by simpa using bound)]
        · intro zero
          refine (List.eq_replicate_of_mem fun other member => ?_).symm
          obtain ⟨j, bound, rfl⟩ := List.getElem_of_mem member
          have later := zero (j + 1) (by simpa using bound) 0 (by omega) rfl
          simpa [bound] using later
      · have shift : ZeroAfterNul (byte :: rest) ↔ ZeroAfterNul rest := by
          constructor
          · intro zero j bound i less
            simpa using zero (j + 1) (by simpa using bound) (i + 1) (by omega)
          · intro zero j bound i less held
            cases i with
            | zero => exact absurd (by simpa using held) nul
            | succ i =>
                obtain ⟨j, rfl⟩ : ∃ k, j = k + 1 := ⟨j - 1, by omega⟩
                simp only [List.length_cons, List.getElem?_cons_succ] at bound held ⊢
                exact zero j (by omega) i (by omega) held
        rw [shift, ← ih, List.takeWhile_cons_of_pos (by simpa using nul), List.length_cons,
          List.length_cons, Nat.add_sub_add_right, List.cons_append, List.cons_eq_cons, eq_self,
          true_and]

/-- The bytes that strncpy copies out of a longer buffer are those of the buffer exactly when there
are only NULs after a NUL among them.
-/
theorem strncpy_eq_take {buf : List Byte} {n : Nat} (enough : n ≤ buf.length)
    : strncpy buf n = buf.take n ↔ ZeroAfterNul (buf.take n) := by
  have length : (buf.take n).length = n := by simp [enough]
  rw [← padded_iff, length]
  rfl

/-- The messages of two parts of a queue are passed on one part after the other. -/
theorem dispatchAll_append {σ : Type} (behaviour : Behaviour σ)
    (slots : List (Nat × Callback × U32)) (front back : List MsgBody) (own : σ)
    : (dispatchAll behaviour slots (front ++ back) own).2
      = (dispatchAll behaviour slots front own).2
        ++ (dispatchAll behaviour slots back (dispatchAll behaviour slots front own).1).2 := by
  induction front generalizing own with
  | nil => rfl
  | cons body rest ih => simp [dispatchAll, ih]

/-- A single message is passed on by itself. -/
theorem dispatchAll_singleton {σ : Type} (behaviour : Behaviour σ)
    (slots : List (Nat × Callback × U32)) (body : MsgBody) (own : σ)
    : dispatchAll behaviour slots [body] own = dispatch behaviour slots own body := by
  simp [dispatchAll]

/-- The first handler that a message is passed to is given the message. -/
theorem dispatch_first {σ : Type} {behaviour : Behaviour σ} {slots : List (Nat × Callback × U32)}
    {own : σ} {body : MsgBody} {record : CallRecord}
    (first : (dispatch behaviour slots own body).2.head? = some record)
    : record.args = body.args record.args.arg := by
  cases slots with
  | nil => simp [dispatch] at first
  | cons entry rest =>
      obtain ⟨slot, cb, arg⟩ := entry
      by_cases stop : (behaviour.call own cb (body.args arg)).2.res = kprintfMsgStop
      · rw [dispatch_stop _ stop] at first
        cases first
        rfl
      · rw [dispatch_pass _ stop] at first
        cases first
        rfl

/-- The message of an accepted call is the formatted text. -/
structure ByteForByte (sh : Shared cfg) (call : KprintfCall cfg) (nodes : List Addr) (m : Addr)
    : Prop where
  len : (sh.k.mem.block m).msg.len.toNat = call.len.toNat
  isUser : (sh.k.mem.block m).msg.isUser = call.isUser
  size : (sh.k.mem.block m).msg.size.toNat = call.len.toNat + 16
  bytes
    : ∀ i < call.len.toNat, (sh.k.mem.block m).msg.msg[i]? = call.buf.toList[i]?
  tail
    : ∀ i, call.len.toNat ≤ i → i < (sh.k.mem.block m).msg.size.toNat →
        (sh.k.mem.block m).msg.msg[i]? = some 0
  inside
    : ∀ store ∈ newMsgStores call.buf.toList call.len call.isUser,
        store.offset + store.bytes.length ≤ (sizeofKprintfMsg call.len).toNat
  stores
    : ∀ block : List Byte, block.length = (sizeofKprintfMsg call.len).toNat →
        runStores block (newMsgStores call.buf.toList call.len call.isUser)
          = some (sh.k.mem.block m).msg.layout
  seen
    : ∀ (σ : Type) (behaviour : Behaviour σ) (thid : Uid) (own : σ),
        ∃ last own' early late,
          early = dispatchAll behaviour sh.g.used (nodes.map fun a => (sh.k.mem.entry a).2) own
          ∧ late = dispatch behaviour sh.g.used early.1 (sh.k.mem.entry m).2
          ∧ Flushing.Leads behaviour thid ⟨sh, some .start, own, []⟩
              ⟨last, none, own', early.2 ++ late.2⟩
          ∧ ∀ record, late.2.head? = some record →
              record.args.len.toNat = call.len.toNat
              ∧ ∀ i < call.len.toNat, record.args.msg[i]? = call.buf.toList[i]?

/-- All stores of new_msg are inside its block. -/
theorem newMsgStores_inside {len : U32} (fits : len.toNat < cfg.kprintfBufsz) (msg : List Byte)
    (isUser : Int)
    : ∀ store ∈ newMsgStores msg len isUser,
        store.offset + store.bytes.length ≤ (sizeofKprintfMsg len).toNat := by
  have whole := (kprintfMsgSize_toNat fits).2
  intro store member
  simp only [newMsgStores, List.mem_cons, List.not_mem_nil, or_false] at member
  rcases member with rfl | rfl | rfl | rfl | rfl | rfl | rfl <;>
    simp [whole, strncpy_length]
  all_goals omega

/-- A call with a positive answer came to a started module and had a text that fits. -/
theorem accepts_of_positive {sh sh' : Shared cfg} {call : KprintfCall cfg} {ret : Int}
    (handled : kprintfHandler sh call = some (sh', ret)) (accepted : 0 < ret)
    : sh.g.gState = .started
      ∧ ¬ (call.len.toInt ≤ 0 ∨ call.len.toNat ≥ cfg.kprintfBufsz) := by
  have refuses (reason : sh.g.gState ≠ .started
      ∨ call.len.toInt ≤ 0 ∨ call.len.toNat ≥ cfg.kprintfBufsz)
      : False := by
    rw [kprintfHandler_refuses reason] at handled
    cases handled
    exact absurd accepted (by simp)
  exact ⟨not_not.mp fun stopped => refuses (Or.inl stopped), fun long => refuses (Or.inr long)⟩

/-- The fields of an accepted message. -/
theorem AcceptedWhole.fields {sh sh' : Shared cfg} {call : KprintfCall cfg} {nodes : List Addr}
    {m : Addr} (whole : AcceptedWhole sh sh' call nodes m)
    (fits : call.len.toNat < cfg.kprintfBufsz)
    : (sh'.k.mem.block m).msg.msg
        = strncpy call.buf.toList call.len.toNat ++ List.replicate 16 0
      ∧ (sh'.k.mem.block m).msg.len.toNat = call.len.toNat
      ∧ (sh'.k.mem.block m).msg.size.toNat = call.len.toNat + 16
      ∧ (sh'.k.mem.block m).msg.isUser = call.isUser := by
  have contents := Option.some.inj (whole.contents.symm.trans (fillMsg_eq fits _ _))
  have bound := cfg.bufsz_fits
  rw [contents]
  refine ⟨rfl, ?_, ?_, rfl⟩
  · rw [BitVec.toNat_setWidth]
    exact Nat.mod_eq_of_lt (by omega)
  · rw [BitVec.toNat_setWidth, (kprintfMsgSize_toNat fits).1]
    exact Nat.mod_eq_of_lt (by omega)

/-- Where strncpy copies the whole text the message is the text. -/
theorem AcceptedWhole.byteForByte {sh sh' : Shared cfg} {call : KprintfCall cfg}
    {nodes : List Addr} {m : Addr} (whole : AcceptedWhole sh sh' call nodes m)
    (pool : sh.k.vpls sh.g.gVplid = true) (fits : call.len.toNat < cfg.kprintfBufsz)
    (copied
      : strncpy call.buf.toList call.len.toNat = call.buf.toList.take call.len.toNat)
    : ByteForByte sh' call nodes m := by
  obtain ⟨text, len, size, isUser⟩ := whole.fields fits
  have length := strncpy_length call.buf.toList call.len.toNat
  have bytes : ∀ i < call.len.toNat,
      (sh'.k.mem.block m).msg.msg[i]? = call.buf.toList[i]? := fun i inside => by
    rw [text, List.getElem?_append_left (by omega), copied, List.getElem?_take_of_lt inside]
  refine
    { len, isUser, size, bytes
      tail := fun i low high => ?_
      inside := newMsgStores_inside fits _ _
      stores := fun block size => ?_
      seen := fun σ behaviour thid own => ?_ }
  · rw [text, List.getElem?_append_right (by omega), List.getElem?_replicate, if_pos (by omega)]
  · obtain ⟨filled, built, ran⟩ := runStores_newMsg fits call.buf.toList call.isUser size
    rw [ran, Option.some.inj (built.symm.trans whole.contents)]
  · have pool' : sh'.k.vpls sh'.g.gVplid = true := by
      rw [whole.kernel, whole.globals]
      exact pool
    obtain ⟨last, _, _, leads⟩ := leads_flushed behaviour thid whole.queue pool' own
    rw [List.map_append, dispatchAll_append, List.map_singleton, dispatchAll_singleton] at leads
    refine ⟨last, _, _, _, rfl, rfl, leads, fun record first => ?_⟩
    rw [dispatch_first first]
    exact ⟨len, bytes⟩

/-- Byte for byte: the message that an accepted call appends is the formatted text, in the stores of
new_msg, in the node and for the first handler, exactly when only NULs follow a NUL in the text.
-/
theorem queued_byte_for_byte {sh sh' : Shared cfg} {nodes : List Addr} {call : KprintfCall cfg}
    {m : Addr} {ret : Int} (queue : Queue sh nodes) (answer : call.answer = .ok m)
    (may : sh.k.MayAllocate sh.g.gVplid (.ok m)) (handled : kprintfHandler sh call = some (sh', ret))
    (accepted : 0 < ret)
    : ByteForByte sh' call nodes m ↔ ZeroAfterNul (call.buf.toList.take call.len.toNat) := by
  obtain ⟨started, accepts⟩ := accepts_of_positive handled accepted
  obtain ⟨pool, nonnull, unused⟩ := may
  have fits : call.len.toNat < cfg.kprintfBufsz := not_le.mp (not_or.mp accepts).2
  obtain ⟨_, same, whole⟩ := acceptedWhole call queue started accepts answer nonnull unused
  cases Option.some.inj (handled.symm.trans same)
  have enough : call.len.toNat ≤ call.buf.toList.length := by simp; omega
  rw [← strncpy_eq_take enough]
  refine ⟨fun equal => List.ext_getElem? fun i => ?_, whole.byteForByte pool fits⟩
  obtain ⟨text, _⟩ := whole.fields fits
  have length := strncpy_length call.buf.toList call.len.toNat
  by_cases inside : i < call.len.toNat
  · have byte := equal.bytes i inside
    rw [text, List.getElem?_append_left (by omega)] at byte
    rw [byte, List.getElem?_take_of_lt inside]
  · rw [List.getElem?_eq_none (by omega), List.getElem?_eq_none (by simp; omega)]

/-- The three characters of a format with `%c` for a NUL between two letters. -/
def nulBetween : KprintfCall .shipped :=
  let zeros : Vector Byte Config.shipped.kprintfBufsz := .replicate _ 0
  ⟨0, 3, (zeros.set 0 97 (by decide)).set 2 98 (by decide), .ok 100⟩

/-- Witness: three letters are queued as they are. -/
theorem queued_byte_for_byte_run
    : ∃ sh', kprintfHandler idle threeLetters = some (sh', 3)
        ∧ ByteForByte sh' threeLetters [] 100 := by
  obtain ⟨sh', handled, _⟩ := acceptedWhole threeLetters idle_queue rfl (by decide) rfl
    (by decide) (by decide)
  have bytes := (queued_byte_for_byte idle_queue rfl (by decide) handled (by decide)).mpr (by decide)
  exact ⟨sh', handled, bytes⟩

/-- Counterexample: behind the NUL nothing is copied. -/
theorem not_queued_byte_for_byte
    : ¬ ∀ (sh' : Shared .shipped) (ret : Int), kprintfHandler idle nulBetween = some (sh', ret) →
        0 < ret → ByteForByte sh' nulBetween [] 100 := by
  intro always
  obtain ⟨sh', handled, whole⟩ := acceptedWhole nulBetween idle_queue rfl (by decide) rfl
    (by decide) (by decide)
  have byte := (always sh' _ handled (by decide)).bytes 2 (by decide)
  have fits : nulBetween.len.toNat < Config.shipped.kprintfBufsz := by decide
  have contents := Option.some.inj (whole.contents.symm.trans (fillMsg_eq fits _ _))
  rw [contents] at byte
  revert byte
  decide

end LibKprintf
