import LibKprintf.Foundation.ByteMemory

/-! Two arrays that are stored to in step. Each has its own place in its own memory, its own size of
an element and its own encoding of the values; what the loops have in common is which elements
get which values.
-/

namespace LibKprintf.Foundation

/-- An array in a byte memory: its first address, the size of its elements in bytes, and how a value
is stored.
-/
structure ElementArray (n m : Nat) (Value : Type*) where
  origin : BitVec n
  size : Nat
  encode : Value → BitVec m

namespace ElementArray

variable {n m k l : Nat} {Value : Type*}

/-- The first elements of the array are inside the address space. -/
def Covers (array : ElementArray n m Value) (count : Nat) : Prop :=
  0 < array.size ∧ array.size * count ≤ 2 ^ n

/-- Store a value to an element, which may be in front of the origin. -/
def store (array : ElementArray n m Value) (mem : ByteMemory n) (i : Int) (value : Value)
    : ByteMemory n :=
  mem.store array.size (element array.origin array.size i) (array.encode value)

/-- An element holds a value. -/
def Shows (array : ElementArray n m Value) (mem : ByteMemory n) (i : Nat) (value : Value) : Prop :=
  mem.Holds array.origin array.size i (array.encode value)

/-- The bytes of an element are the same in both memories. -/
def Keeps (array : ElementArray n m Value) (mem mem' : ByteMemory n) (i : Nat) : Prop :=
  ∀ b < array.size, mem'.byte (element array.origin array.size i + BitVec.ofNat n b)
    = mem.byte (element array.origin array.size i + BitVec.ofNat n b)

/-- An element of two arrays has been kept in both, or holds the same value in both. -/
def InStep (one : ElementArray n m Value) (two : ElementArray k l Value)
    (first first' : ByteMemory n) (second second' : ByteMemory k) (i : Nat)
    : Prop :=
  (one.Keeps first first' i ∧ two.Keeps second second' i)
    ∨ ∃ value, one.Shows first' i value ∧ two.Shows second' i value

section Store

variable {array : ElementArray n m Value} {mem mem' mem'' : ByteMemory n} {count i j : Nat}

/-- An element inside the address space ends inside it. -/
theorem Covers.room (covers : array.Covers count) (inside : i < count)
    : array.size * i + array.size ≤ 2 ^ n := by
  have scaled := Nat.mul_le_mul_left array.size (Nat.succ_le_of_lt inside)
  rw [Nat.mul_succ] at scaled
  exact scaled.trans covers.2

/-- The element that is stored to holds the value. -/
theorem Covers.shows (covers : array.Covers count) (inside : i < count) (value : Value)
    : array.Shows (array.store mem i value) i value := by
  intro b within
  have room := covers.room inside
  rw [store, ByteMemory.store_element covers.1 room, ByteMemory.byte_paint room within, if_pos rfl]

/-- The others are kept. -/
theorem Covers.keeps (covers : array.Covers count) (inside : i < count) (other : j < count)
    (apart : j ≠ i) (value : Value)
    : array.Keeps mem (array.store mem i value) j := by
  intro b within
  rw [store, ByteMemory.store_element covers.1 (covers.room inside),
    ByteMemory.byte_paint (covers.room other) within, if_neg apart]

/-- Nothing happens. -/
theorem Keeps.refl : array.Keeps mem mem i := fun _ _ => rfl

/-- An element that is kept twice is kept. -/
theorem Keeps.trans (earlier : array.Keeps mem mem' i) (later : array.Keeps mem' mem'' i)
    : array.Keeps mem mem'' i :=
  fun b within => (later b within).trans (earlier b within)

/-- An element that is kept holds what it held. -/
theorem Keeps.shows {value : Value} (keeps : array.Keeps mem mem' i)
    (shows : array.Shows mem i value)
    : array.Shows mem' i value :=
  fun b within => (keeps b within).trans (shows b within)

end Store

section InStep

variable {one : ElementArray n m Value} {two : ElementArray k l Value}
variable {first first' first'' : ByteMemory n} {second second' second'' : ByteMemory k}
variable {count i j : Nat}

/-- Nothing happens to either array. -/
theorem InStep.refl : one.InStep two first first second second i := Or.inl ⟨.refl, .refl⟩

/-- Two steps are one. -/
theorem InStep.trans (earlier : one.InStep two first first' second second' i)
    (later : one.InStep two first' first'' second' second'' i)
    : one.InStep two first first'' second second'' i := by
  rcases later with ⟨kept, kept'⟩ | same
  · rcases earlier with ⟨before, before'⟩ | ⟨value, shows, shows'⟩
    · exact Or.inl ⟨before.trans kept, before'.trans kept'⟩
    · exact Or.inr ⟨value, kept.shows shows, kept'.shows shows'⟩
  · exact Or.inr same

/-- An element with the same value in both arrays still has one after a step. -/
theorem InStep.agree (step : one.InStep two first first' second second' i)
    (same : ∃ value, one.Shows first i value ∧ two.Shows second i value)
    : ∃ value, one.Shows first' i value ∧ two.Shows second' i value := by
  rcases step with ⟨kept, kept'⟩ | same'
  · obtain ⟨value, shows, shows'⟩ := same
    exact ⟨value, kept.shows shows, kept'.shows shows'⟩
  · exact same'

/-- Storing one value to the same element of both arrays is a step. -/
theorem store_inStep (covers : one.Covers count) (covers' : two.Covers count)
    (inside : i < count) (any : j < count) (value : Value)
    : one.InStep two first (one.store first i value) second (two.store second i value) j := by
  by_cases same : j = i
  · subst same
    exact Or.inr ⟨value, covers.shows inside value, covers'.shows inside value⟩
  · exact Or.inl ⟨covers.keeps inside any same value, covers'.keeps inside any same value⟩

/-- A loop whose rounds are steps is a step; by induction on the rounds. -/
theorem foldl_inStep {α : Type*} (list : List α) {f : ByteMemory n → α → ByteMemory n}
    {g : ByteMemory k → α → ByteMemory k}
    (round
      : ∀ x ∈ list, ∀ first second,
          one.InStep two first (f first x) second (g second x) i)
    : one.InStep two first (list.foldl f first) second (list.foldl g second) i := by
  induction list generalizing first second with
  | nil => exact .refl
  | cons x rest ih =>
      refine (round x List.mem_cons_self first second).trans ?_
      exact ih fun y member => round y (List.mem_cons_of_mem x member)

end InStep

end ElementArray

end LibKprintf.Foundation
