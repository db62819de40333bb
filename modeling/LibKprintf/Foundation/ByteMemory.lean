import Mathlib.Data.BitVec
import Mathlib.Tactic.Ring
import LibKprintf.Foundation.History

/-! Byte-addressed memory whose addresses wrap around, and arrays of little-endian elements
in it. What a loop of element stores comes to is said by an overlay: which elements, counted
from an origin, have which new values.
-/

namespace LibKprintf.Foundation

/-- The bytes of a memory with addresses of `n` bits, and which of them have been stored to. -/
structure ByteMemory (n : Nat) where
  byte : BitVec n → BitVec 8
  written : BitVec n → Bool

/-- New values of some elements of an array. -/
abbrev Overlay (m : Nat) := Nat → Option (BitVec m)

/-- Byte `k` of a value, the least significant one first. -/
def byteOf {m : Nat} (value : BitVec m) (k : Nat) : BitVec 8 := (value >>> (8 * k)).setWidth 8

/-- The bytes of zero are zero. -/
theorem byteOf_zero {m : Nat} (k : Nat) : byteOf (0 : BitVec m) k = 0 := by simp [byteOf]

/-- The address of element `i` of an array of elements of `size` bytes. -/
def element {n : Nat} (origin : BitVec n) (size : Nat) (i : Int) : BitVec n :=
  origin + BitVec.ofInt n (size * i)

/-- The element after the next `j` ones of an element. -/
theorem element_element {n : Nat} (origin : BitVec n) (size : Nat) (i j : Int)
    : element (element origin size i) size j = element origin size (i + j) := by
  rw [element, element, element, BitVec.add_assoc, ← BitVec.ofInt_add, Int.mul_add]

/-- An element that is not in front of the origin. -/
theorem element_natCast {n : Nat} (origin : BitVec n) (size i : Nat)
    : element origin size i = origin + BitVec.ofNat n (size * i) := by
  have cast : (size : Int) * (i : Int) = ((size * i : Nat) : Int) := (Int.natCast_mul size i).symm
  rw [element, cast, BitVec.ofInt_natCast]

/-- The distance of an element from the origin. -/
theorem element_sub {n : Nat} (origin : BitVec n) (size i : Nat)
    : element origin size i - origin = BitVec.ofNat n (size * i) := by
  rw [element_natCast, BitVec.add_comm, BitVec.add_sub_cancel]

/-- The distance of a byte of an element from the origin. -/
theorem element_byte_sub {n : Nat} (origin : BitVec n) (size i k : Nat)
    : (element origin size i + BitVec.ofNat n k) - origin = BitVec.ofNat n (size * i + k) := by
  rw [add_sub_right_comm, element_sub, BitVec.ofNat_add]

/-- Of two areas one contains the other exactly if it begins and ends inside it. -/
theorem area_subset {n inner outer : Nat} (origin start : BitVec n) (positive : 0 < inner)
    (bound : outer < 2 ^ n)
    : (∀ a, (a - start).toNat < inner → (a - origin).toNat < outer)
      ↔ (start - origin).toNat + inner ≤ outer := by
  have shifted (x : Nat)
      : ((start + BitVec.ofNat n x) - origin).toNat = ((start - origin).toNat + x) % 2 ^ n := by
    rw [add_sub_right_comm, BitVec.toNat_add, BitVec.toNat_ofNat, Nat.add_mod_mod]
  have distance (x : Nat) (inside : x < 2 ^ n)
      : ((start + BitVec.ofNat n x) - start).toNat = x := by
    rw [add_sub_cancel_left, BitVec.toNat_ofNat, Nat.mod_eq_of_lt inside]
  constructor
  · intro contained
    have first := contained start (by simpa using positive)
    by_contra longer
    -- The first byte behind the outer area is still in the inner one.
    have last := contained (start + BitVec.ofNat n (outer - (start - origin).toNat))
    rw [distance _ (by omega), shifted, Nat.add_sub_cancel' first.le,
      Nat.mod_eq_of_lt bound] at last
    omega
  · intro room a inside
    have back : a = start + BitVec.ofNat n (a - start).toNat := by
      rw [BitVec.ofNat_toNat, BitVec.setWidth_eq, add_sub_cancel]
    rw [back, shifted, Nat.mod_eq_of_lt (by omega)]
    omega

/-- The bytes of a value determine it. -/
theorem eq_of_byteOf {m : Nat} (size : Nat) {a b : BitVec m} (enough : m ≤ 8 * size)
    (same : ∀ k < size, byteOf a k = byteOf b k)
    : a = b := by
  refine BitVec.eq_of_getLsbD_eq fun i inside => ?_
  have bit (value : BitVec m) : (byteOf value (i / 8)).getLsbD (i % 8) = value.getLsbD i := by
    have place : 8 * (i / 8) + i % 8 = i := Nat.div_add_mod i 8
    have within : i % 8 < 8 := Nat.mod_lt i (by omega)
    simp [byteOf, place, within]
  rw [← bit a, ← bit b, same (i / 8) (by omega)]

namespace ByteMemory

variable {n m : Nat} {mem : ByteMemory n} {origin : BitVec n} {size : Nat}

/-- Store the `size` low bytes of a value from an address on. -/
def store (mem : ByteMemory n) (size : Nat) (address : BitVec n) (value : BitVec m)
    : ByteMemory n where
  byte := fun a =>
    if (a - address).toNat < size then byteOf value (a - address).toNat else mem.byte a
  written := fun a => decide ((a - address).toNat < size) || mem.written a

/-- The memory after an overlay has been put on the array at an origin. -/
def paint (mem : ByteMemory n) (origin : BitVec n) (size : Nat) (overlay : Overlay m)
    : ByteMemory n where
  byte := fun a =>
    match overlay ((a - origin).toNat / size) with
    | some value => byteOf value ((a - origin).toNat % size)
    | none => mem.byte a
  written := fun a => (overlay ((a - origin).toNat / size)).isSome || mem.written a

/-- The element at an index has a value. -/
def Holds (mem : ByteMemory n) (origin : BitVec n) (size i : Nat) (value : BitVec m) : Prop :=
  ∀ k < size, mem.byte (element origin size i + BitVec.ofNat n k) = byteOf value k

/-- Of two overlays on the same array the later one hides the earlier one. -/
theorem paint_paint (earlier later : Overlay m)
    : (mem.paint origin size earlier).paint origin size later
      = mem.paint origin size (fun i => (later i).or (earlier i)) := by
  simp only [paint, mk.injEq]
  constructor <;> funext a <;> cases above : later ((a - origin).toNat / size) <;> simp

/-- The distance of an address from an element, where the array does not wrap around. -/
theorem sub_element {i : Nat} (bound : size * i + size ≤ 2 ^ n) (a : BitVec n)
    : (a - element origin size i).toNat
      = if size * i ≤ (a - origin).toNat then (a - origin).toNat - size * i
        else 2 ^ n - size * i + (a - origin).toNat := by
  have split : a - element origin size i = (a - origin) - BitVec.ofNat n (size * i) := by
    rw [← element_sub origin size i, sub_sub_sub_cancel_right]
  have wide := (a - origin).isLt
  rw [split, BitVec.toNat_sub, BitVec.toNat_ofNat]
  generalize (a - origin).toNat = d at wide ⊢
  by_cases empty : size = 0
  · subst empty
    simp [Nat.mod_eq_of_lt wide]
  · rw [Nat.mod_eq_of_lt (show size * i < 2 ^ n by omega)]
    split_ifs with reached
    · have whole : 2 ^ n - size * i + d = 2 ^ n + (d - size * i) := by omega
      rw [whole, Nat.add_mod_left, Nat.mod_eq_of_lt (by omega)]
    · exact Nat.mod_eq_of_lt (by omega)

/-- Storing an element is putting an overlay with that one element on the array. -/
theorem store_element {i : Nat} (positive : 0 < size) (bound : size * i + size ≤ 2 ^ n)
    (value : BitVec m)
    : mem.store size (element origin size i) value
      = mem.paint origin size (fun j => if j = i then some value else none) := by
  have inside (a : BitVec n)
      : (a - element origin size i).toNat < size ↔ (a - origin).toNat / size = i := by
    have wide := (a - origin).isLt
    rw [sub_element bound, Nat.div_eq_iff positive, Nat.mul_comm i size]
    split_ifs with reached <;> omega
  have place (a : BitVec n) (quotient : (a - origin).toNat / size = i)
      : (a - element origin size i).toNat = (a - origin).toNat % size := by
    have parts := Nat.div_add_mod (a - origin).toNat size
    rw [quotient] at parts
    rw [sub_element bound, if_pos (by omega)]
    omega
  simp only [store, paint, mk.injEq]
  constructor
  · funext a
    by_cases same : (a - origin).toNat / size = i
    · rw [if_pos ((inside a).mpr same), if_pos same, place a same]
    · rw [if_neg (mt (inside a).mp same), if_neg same]
  · funext a
    by_cases same : (a - origin).toNat / size = i
    · rw [decide_eq_true ((inside a).mpr same), if_pos same]
      rfl
    · rw [decide_eq_false (mt (inside a).mp same), if_neg same]
      rfl

/-- A loop of overlays, where every element has at most one place in the loop. -/
theorem foldl_paint {overlay : Nat → Overlay m} (place : Nat → Nat)
    (only : ∀ x i, (overlay x i).isSome → x = place i) (count : Nat)
    : (List.range count).foldl (fun mem x => mem.paint origin size (overlay x)) mem
      = mem.paint origin size (fun i => if place i < count then overlay (place i) i else none) := by
  induction count with
  | zero => simp [paint]
  | succ count ih =>
      rw [List.range_succ, List.foldl_append, ih, List.foldl_cons, List.foldl_nil, paint_paint]
      congr 1
      funext i
      by_cases last : place i = count
      · rw [if_neg (by omega), if_pos (by omega), last, Option.or_none]
      · have silent : overlay count i = none := by
          by_contra hit
          exact last (only count i (Option.isSome_iff_ne_none.mpr hit)).symm
        rw [silent, Option.none_or]
        exact if_congr (by omega) rfl rfl

/-- A sequence of overlays on the same array: of every element the last value stays. -/
theorem foldl_paint_latest {α : Type*} (overlay : α → Overlay m) (list : List α)
    : list.foldl (fun mem a => mem.paint origin size (overlay a)) mem
      = mem.paint origin size (fun i => latest (fun a => overlay a i) list) := by
  induction list generalizing mem with
  | nil => simp [paint, latest_nil]
  | cons a rest ih =>
      rw [List.foldl_cons, ih, paint_paint]
      simp only [latest_cons]

/-- A loop that stores one value to the elements of an array one after the other. -/
theorem foldl_fill {count : Nat} (positive : 0 < size) (bound : size * count ≤ 2 ^ n)
    (value : BitVec m)
    : (List.range count).foldl (fun mem x => mem.store size (element origin size x) value) mem
      = mem.paint origin size (fun i => if i < count then some value else none) := by
  have step (mem : ByteMemory n) (x : Nat) (member : x ∈ List.range count)
      : mem.store size (element origin size x) value
        = mem.paint origin size (fun j => if j = x then some value else none) := by
    have room : size * (x + 1) ≤ size * count :=
      Nat.mul_le_mul_left size (List.mem_range.mp member)
    exact store_element positive (by rw [Nat.mul_succ] at room; omega) value
  have only (x i : Nat) (hit : (if i = x then some value else none).isSome) : x = id i := by
    by_contra other
    have different : i ≠ x := Ne.symm other
    rw [if_neg different] at hit
    contradiction
  rw [List.foldl_ext _ _ _ step, foldl_paint id only]
  simp

/-- The bytes of an element after an overlay: of the new value, or what was there before. -/
theorem byte_paint {overlay : Overlay m} {i k : Nat} (bound : size * i + size ≤ 2 ^ n)
    (inside : k < size)
    : (mem.paint origin size overlay).byte (element origin size i + BitVec.ofNat n k)
      = match overlay i with
        | some value => byteOf value k
        | none => mem.byte (element origin size i + BitVec.ofNat n k) := by
  have quotient : (size * i + k) / size = i := by
    rw [Nat.mul_add_div (by omega), Nat.div_eq_of_lt inside, Nat.add_zero]
  have rest : (size * i + k) % size = k := by
    rw [Nat.mul_add_mod, Nat.mod_eq_of_lt inside]
  simp only [paint, element_byte_sub, BitVec.toNat_ofNat]
  rw [Nat.mod_eq_of_lt (by omega), quotient, rest]

/-- All elements of an array are zero exactly if all its bytes are. -/
theorem holds_zero {count : Nat} (positive : 0 < size) (bound : size * count ≤ 2 ^ n)
    : (∀ i < count, mem.Holds origin size i (0 : BitVec m))
      ↔ ∀ a, (a - origin).toNat < size * count → mem.byte a = 0 := by
  constructor
  · intro zeros a inside
    have split := Nat.div_add_mod (a - origin).toNat size
    have place : element origin size ((a - origin).toNat / size : Nat)
        + BitVec.ofNat n ((a - origin).toNat % size) = a := by
      rw [← sub_left_inj (a := origin), element_byte_sub, split, BitVec.ofNat_toNat,
        BitVec.setWidth_eq]
    have index : (a - origin).toNat / size < count := by
      rw [Nat.div_lt_iff_lt_mul positive, Nat.mul_comm]
      exact inside
    have byte := zeros _ index _ (Nat.mod_lt (a - origin).toNat positive)
    rwa [place, byteOf_zero] at byte
  · intro zeros i inside k within
    have room := Nat.mul_le_mul_left size (Nat.succ_le_of_lt inside)
    rw [Nat.mul_succ] at room
    rw [byteOf_zero]
    refine zeros _ ?_
    rw [element_byte_sub, BitVec.toNat_ofNat, Nat.mod_eq_of_lt (by omega)]
    omega

end ByteMemory

end LibKprintf.Foundation
