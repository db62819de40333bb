import LibKprintf.Handlers.Callbacks
import LibKprintf.Handlers.Refinement
import LibKprintf.Model.DefaultHandler
import LibKprintf.Queue.Operations

/-! The library's own handler among those of the clients: which indices of a message it touches,
after whatever the handlers before it have done to the message within their contract.
-/

namespace LibKprintf

variable {cfg : Config} {σ : Type}

/-- The memory around a text, which has these bytes outside of it. -/
def around (outside : Int → Byte) (msg : List Byte) : Int → Byte :=
  fun i => if 0 ≤ i then msg[i.toNat]?.getD (outside i) else outside i

/-- default_file_handler, called with these arguments. -/
def CallArgs.defaultRun (cfg : Config) (outside : Int → Byte) (args : CallArgs) : DefaultRun :=
  defaultFileHandler cfg args.arg (around outside args.msg) args.len args.isUser

/-- The clients' callbacks and the library's own handler together. -/
def Behaviour.withDefault (cfg : Config) (outside : Int → Byte) (clients : Behaviour σ)
    : Behaviour σ where
  call own cb args :=
    match cb with
    | .defaultFileHandler =>
        let run := args.defaultRun cfg outside
        (own, ⟨kprintfMsgOk, run.len, (List.range args.msg.length).map (fun i : Nat => run.msg i)⟩)
    | .client entry => clients.call own (.client entry) args
  capacity := by
    intro own cb args
    cases cb with
    | defaultFileHandler => simp
    | client entry => exact clients.capacity own _ args

/-- A text fills its capacity, and its length is that of a string that fits into it. -/
structure Terminated (msg : List Byte) (len size : U16) : Prop where
  capacity : msg.length = size.toNat
  short : len.toNat < size.toNat
  zero : msg[len.toNat]? = some 0

/-- The contract of kprintf.h: a handler that is given a terminated string leaves one. -/
def Behaviour.Obeys (clients : Behaviour σ) : Prop :=
  ∀ own entry args, Terminated args.msg args.len args.size →
    Terminated (clients.call own (.client entry) args).2.msg
      (clients.call own (.client entry) args).2.len args.size

/-- What default_file_handler may do: touch the bytes of its message only, and leave a string that
fits.
-/
structure CallArgs.Safe (args : CallArgs) (cfg : Config) (outside : Int → Byte) : Prop where
  inside : ∀ i ∈ (args.defaultRun cfg outside).touched, 0 ≤ i ∧ i < args.size.toNat
  short : (args.defaultRun cfg outside).len.toNat < args.size.toNat
  zero : (args.defaultRun cfg outside).msg (args.defaultRun cfg outside).len.toNat = 0

/-- The string is not empty, and has room for one more byte or ends with a newline. -/
structure CallArgs.Fits (args : CallArgs) : Prop where
  nonempty : 1 ≤ args.len.toNat
  room : args.len.toNat + 2 ≤ args.size.toNat ∨ args.msg[args.len.toNat - 1]? = some newline

instance (args : CallArgs) : Decidable args.Fits :=
  decidable_of_iff (1 ≤ args.len.toNat ∧ (args.len.toNat + 2 ≤ args.size.toNat
      ∨ args.msg[args.len.toNat - 1]? = some newline))
    ⟨fun both => ⟨both.1, both.2⟩, fun fits => ⟨fits.nonempty, fits.room⟩⟩

/-- Inside its text the memory has the bytes of the text. -/
theorem around_inside (outside : Int → Byte) {msg : List Byte} {i : Nat} {byte : Byte}
    (held : msg[i]? = some byte)
    : around outside msg i = byte := by
  simp [around, held]

/-- What sceIoWrite reads are the bytes of the string. -/
theorem mem_written {writes : Bool} {len : Nat} {i : Int}
    (member : i ∈ if writes then (List.range len).map Int.ofNat else [])
    : 0 ≤ i ∧ i < len := by
  cases writes with
  | false => simp at member
  | true =>
      simp only [if_true, List.mem_map, List.mem_range] at member
      obtain ⟨j, bound, rfl⟩ := member
      exact ⟨Int.natCast_nonneg j, Int.ofNat_lt.mpr bound⟩

section DefaultRun

variable {outside : Int → Byte} {args : CallArgs}

/-- A string that ends with a newline is only read. -/
theorem defaultRun_ended (on : cfg.kprintfDhAutoNewline = true)
    (ended : around outside args.msg ((args.len.toNat : Int) - 1) = newline)
    : (∀ i ∈ (args.defaultRun cfg outside).touched,
          i = (args.len.toNat : Int) - 1 ∨ 0 ≤ i ∧ i < args.len.toNat)
      ∧ (args.len.toNat : Int) - 1 ∈ (args.defaultRun cfg outside).touched
      ∧ (args.defaultRun cfg outside).len = args.len
      ∧ (args.defaultRun cfg outside).msg = around outside args.msg := by
  simp only [CallArgs.defaultRun, defaultFileHandler, on, if_true, ended, ne_eq, not_true_eq_false,
    if_false, Int.toNat_natCast]
  refine ⟨fun i member => ?_, by simp, by simp, trivial⟩
  rcases List.mem_append.mp member with last | written
  · exact Or.inl (by simpa using last)
  · exact Or.inr (mem_written written)

/-- Another string gets one, and a new end. -/
theorem defaultRun_open (on : cfg.kprintfDhAutoNewline = true)
    (unended : around outside args.msg ((args.len.toNat : Int) - 1) ≠ newline)
    : (∀ i ∈ (args.defaultRun cfg outside).touched,
          i = (args.len.toNat : Int) - 1 ∨ 0 ≤ i ∧ i < args.len.toNat + 2)
      ∧ (args.len.toNat : Int) - 1 ∈ (args.defaultRun cfg outside).touched
      ∧ (args.len.toNat : Int) + 1 ∈ (args.defaultRun cfg outside).touched
      ∧ (args.defaultRun cfg outside).len = BitVec.ofNat 16 (args.len.toNat + 1)
      ∧ (args.defaultRun cfg outside).msg ((args.len.toNat : Int) + 1) = 0 := by
  have next : ((args.len.toNat : Int) + 1).toNat = args.len.toNat + 1 := by omega
  simp only [CallArgs.defaultRun, defaultFileHandler, on, if_true, ne_eq, unended, not_false_eq_true,
    next]
  refine ⟨fun i member => ?_, by simp, by simp, ?_, by simp⟩
  · rcases List.mem_append.mp member with three | written
    · simp only [List.mem_cons, List.not_mem_nil, or_false] at three
      omega
    · have bounds := mem_written written
      push_cast at bounds
      omega
  · rw [← BitVec.ofInt_natCast]
    push_cast
    rfl

end DefaultRun

/-- default_file_handler behaves exactly when its string fits. -/
theorem safe_iff {outside : Int → Byte} {args : CallArgs} (on : cfg.kprintfDhAutoNewline = true)
    (terminated : Terminated args.msg args.len args.size)
    : args.Safe cfg outside ↔ args.Fits := by
  obtain ⟨capacity, short, zero⟩ := terminated
  have wide := args.size.isLt
  by_cases ended : around outside args.msg ((args.len.toNat : Int) - 1) = newline
  · obtain ⟨inside, last, len, msg⟩ := defaultRun_ended on ended
    constructor
    · intro safe
      have nonempty := (safe.inside _ last).1
      have index : ((args.len.toNat - 1 : Nat) : Int) = (args.len.toNat : Int) - 1 := by omega
      obtain ⟨byte, held⟩ : ∃ byte, args.msg[args.len.toNat - 1]? = some byte :=
        ⟨_, List.getElem?_eq_getElem (by omega)⟩
      refine ⟨by omega, Or.inr ?_⟩
      rw [held, ← around_inside outside held, index, ended]
    · intro fits
      have nonempty := fits.nonempty
      refine ⟨fun i member => ?_, by rw [len]; exact short, ?_⟩
      · rcases inside i member with rfl | ⟨low, high⟩ <;> omega
      · rw [len, msg]
        exact around_inside outside zero
  · obtain ⟨inside, last, beyond, len, msg⟩ := defaultRun_open on ended
    have index : 1 ≤ args.len.toNat →
        ((args.len.toNat - 1 : Nat) : Int) = (args.len.toNat : Int) - 1 := by omega
    have small : args.len.toNat + 1 < 2 ^ 16 := by omega
    have length : (BitVec.ofNat 16 (args.len.toNat + 1)).toNat = args.len.toNat + 1 := by
      rw [BitVec.toNat_ofNat, Nat.mod_eq_of_lt small]
    constructor
    · intro safe
      have nonempty := (safe.inside _ last).1
      have room := (safe.inside _ beyond).2
      exact ⟨by omega, Or.inl (by omega)⟩
    · intro fits
      have nonempty := fits.nonempty
      have room : args.len.toNat + 2 ≤ args.size.toNat := by
        rcases fits.room with room | newline'
        · exact room
        · have held := around_inside outside newline'
          rw [index nonempty] at held
          exact absurd held ended
      refine ⟨fun i member => ?_, by rw [len, length]; omega, ?_⟩
      · rcases inside i member with rfl | ⟨low, high⟩ <;> omega
      · rw [len, length]
        push_cast
        exact msg

section Chain

variable {outside : Int → Byte} {clients : Behaviour σ}

/-- The library's own handler leaves a terminated string where it is safe. -/
theorem terminated_of_safe {args : CallArgs} (own : σ) (capacity : args.msg.length = args.size.toNat)
    (safe : args.Safe cfg outside)
    : Terminated ((clients.withDefault cfg outside).call own .defaultFileHandler args).2.msg
        ((clients.withDefault cfg outside).call own .defaultFileHandler args).2.len args.size where
  capacity := ((clients.withDefault cfg outside).capacity own _ args).trans capacity
  short := safe.short
  zero := by
    have inside : (args.defaultRun cfg outside).len.toNat < args.msg.length :=
      capacity ▸ safe.short
    simp [Behaviour.withDefault, inside, safe.zero]

/-- Down a chain of handlers that gets a terminated string, the library's own handler is safe
whenever it is called, exactly when its string fits whenever it is called; by induction on the
slots.
-/
theorem dispatch_safe_iff (on : cfg.kprintfDhAutoNewline = true) (obeys : clients.Obeys)
    {slots : List (Nat × Callback × U32)} {own : σ} {body : MsgBody}
    (terminated : Terminated body.msg body.len body.size)
    : (∀ record ∈ (dispatch (clients.withDefault cfg outside) slots own body).2,
          record.cb = .defaultFileHandler → record.args.Safe cfg outside)
      ↔ ∀ record ∈ (dispatch (clients.withDefault cfg outside) slots own body).2,
          record.cb = .defaultFileHandler → record.args.Fits := by
  induction slots generalizing own body with
  | nil => simp [dispatch]
  | cons entry rest ih =>
      obtain ⟨slot, cb, arg⟩ := entry
      have first : cb = .defaultFileHandler →
          ((body.args arg).Safe cfg outside ↔ (body.args arg).Fits) := fun _ =>
        safe_iff on terminated
      have next (safe : cb = .defaultFileHandler → (body.args arg).Safe cfg outside) :
          Terminated ((clients.withDefault cfg outside).call own cb (body.args arg)).2.msg
            ((clients.withDefault cfg outside).call own cb (body.args arg)).2.len body.size := by
        cases cb with
        | defaultFileHandler => exact terminated_of_safe own terminated.capacity (safe rfl)
        | client entry => exact obeys own entry (body.args arg) terminated
      by_cases stop : ((clients.withDefault cfg outside).call own cb (body.args arg)).2.res
          = kprintfMsgStop
      · rw [dispatch_stop _ stop]
        simp only [List.forall_mem_singleton]
        exact forall_congr' first
      · rw [dispatch_pass _ stop]
        simp only [List.forall_mem_cons]
        constructor
        · intro both
          obtain ⟨safe, others⟩ := both
          exact ⟨fun isDefault => (first isDefault).mp (safe isDefault),
            (ih (next safe)).mp others⟩
        · intro both
          obtain ⟨fits, others⟩ := both
          have safe : cb = .defaultFileHandler → (body.args arg).Safe cfg outside :=
            fun isDefault => (first isDefault).mpr (fits isDefault)
          exact ⟨safe, (ih (next safe)).mpr others⟩

end Chain

/-- new_msg leaves a terminated string. -/
theorem fillMsg_terminated {buf : List Byte} {len : U32} {isUser : Int} {m : KprintfMsg}
    (fits : len.toNat < cfg.kprintfBufsz) (built : fillMsg buf len isUser = some m)
    : Terminated m.msg m.len m.size := by
  have bound := cfg.bufsz_fits
  have size := (kprintfMsgSize_toNat fits).1
  have length := strncpy_length buf len.toNat
  have len16 : (len.setWidth 16).toNat = len.toNat := by
    simp only [BitVec.toNat_setWidth]
    exact Nat.mod_eq_of_lt (by omega)
  have size16 : ((kprintfMsgSize len).setWidth 16).toNat = len.toNat + 16 := by
    simp only [BitVec.toNat_setWidth, size]
    exact Nat.mod_eq_of_lt (by omega)
  rw [fillMsg_eq fits] at built
  cases built
  refine ⟨?_, ?_, ?_⟩
  · simp [length, size16]
  · rw [len16, size16]
    omega
  · rw [len16, List.getElem?_append_right (by omega), length]
    simp

/-- Message bounds: for every message that new_msg builds, every table and every behaviour of the
clients' callbacks within their contract, the library's own handler stays within the message
whenever it is called, exactly when its string is not empty and has room for a newline, or ends
with one, whenever it is called.
-/
theorem default_handler_bounds (on : cfg.kprintfDhAutoNewline = true) (outside : Int → Byte)
    {clients : Behaviour σ} (obeys : clients.Obeys) (g : Globals cfg) (own : σ) {buf : List Byte}
    {len : U32} {isUser : Int} {m : KprintfMsg} (fits : len.toNat < cfg.kprintfBufsz)
    (built : fillMsg buf len isUser = some m)
    : (∀ record ∈ (dispatch (clients.withDefault cfg outside) g.used own m.toMsgBody).2,
          record.cb = .defaultFileHandler → record.args.Safe cfg outside)
      ↔ ∀ record ∈ (dispatch (clients.withDefault cfg outside) g.used own m.toMsgBody).2,
          record.cb = .defaultFileHandler → record.args.Fits :=
  dispatch_safe_iff on obeys (fillMsg_terminated fits built)

/-- A client's callback in slot 0, and the library's own handler behind it. -/
def twoHandlers : Globals .shipped :=
  (startedGlobals.setCb 0 (some (.client 7))).setCb 1 (some .defaultFileHandler)

/-- A callback that leaves the message as it is. -/
def readOnly : Behaviour Unit where
  call := fun _ _ args => ((), ⟨kprintfMsgOk, args.len, args.msg⟩)
  capacity := fun _ _ _ => rfl

/-- A callback that fills the message up to the last byte of its capacity with a string. -/
def fillUp : Behaviour Unit where
  call := fun _ _ args =>
    ((), ⟨kprintfMsgOk, BitVec.ofNat 16 (args.msg.length - 1),
      (List.range args.msg.length).map (fun i => if i + 1 < args.msg.length then 65 else 0)⟩)
  capacity := by simp

/-- It keeps the contract. -/
theorem fillUp_obeys : fillUp.Obeys := by
  intro _ _ args ⟨capacity, short, _⟩
  have wide := args.size.isLt
  have length : (BitVec.ofNat 16 (args.msg.length - 1)).toNat = args.msg.length - 1 := by
    rw [BitVec.toNat_ofNat]
    exact Nat.mod_eq_of_lt (by omega)
  refine ⟨by simpa [fillUp] using capacity, ?_, ?_⟩
  · simp only [fillUp, length]
    omega
  · simp only [fillUp, length, List.getElem?_map]
    rw [List.getElem?_range (by omega)]
    simp
    omega

/-- Witness: behind a callback that only reads the message, the library's own handler is safe. -/
theorem default_handler_bounds_run
    : ∃ m, fillMsg [65, 66, 67] 3 0 = some m
        ∧ ∀ record ∈ (dispatch (readOnly.withDefault .shipped fun _ => 0) twoHandlers.used ()
              m.toMsgBody).2,
            record.cb = .defaultFileHandler → record.args.Safe .shipped fun _ => 0 := by
  have fits : (3 : U32).toNat < Config.shipped.kprintfBufsz := by decide
  refine ⟨_, fillMsg_eq fits [65, 66, 67] 0, ?_⟩
  have obeys : readOnly.Obeys := fun _ _ _ terminated => terminated
  refine (default_handler_bounds (by rfl) (fun _ => 0) obeys twoHandlers () fits
    (fillMsg_eq fits _ _)).mpr ?_
  decide +kernel

/-- Counterexample: behind a callback that fills the message up, the library's own handler writes
the byte behind it.
-/
theorem not_default_handler_bounds
    : ¬ ∀ (clients : Behaviour Unit) (g : Globals .shipped) (buf : List Byte) (len : U32) m,
        clients.Obeys → len.toNat < Config.shipped.kprintfBufsz → fillMsg buf len 0 = some m →
          ∀ record ∈ (dispatch (clients.withDefault .shipped fun _ => 0) g.used () m.toMsgBody).2,
            record.cb = .defaultFileHandler → record.args.Safe .shipped fun _ => 0 := by
  intro always
  have fits : (3 : U32).toNat < Config.shipped.kprintfBufsz := by decide
  have safe := always fillUp twoHandlers [65, 66, 67] 3 _ fillUp_obeys fits
    (fillMsg_eq fits _ _)
  have writes : ∃ record ∈ (dispatch (fillUp.withDefault .shipped fun _ => 0) twoHandlers.used ()
      ⟨0, 3, 19, strncpy [65, 66, 67] 3 ++ List.replicate 16 0⟩).2,
        record.cb = .defaultFileHandler ∧ record.args.size.toNat = 19
        ∧ 19 ∈ (record.args.defaultRun .shipped fun _ => 0).touched := by
    decide +kernel
  obtain ⟨record, member, isDefault, size, touched⟩ := writes
  have inside := (safe record member isDefault).inside 19 touched
  rw [size] at inside
  exact absurd inside.2 (by decide)

end LibKprintf
