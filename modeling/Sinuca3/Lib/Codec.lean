import Mathlib.Data.List.Basic

/-!
# Records of a fixed width

A codec writes a value as a fixed number of octets and reads it back. A file of
records is the concatenation of their encodings; `records` cuts octets into as
many whole records as there are, and drops what is left over.
-/
namespace Lib

abbrev Byte : Type := BitVec 8

structure Codec (α : Type) where
  width : Nat
  encode : α → List Byte
  decode : List Byte → α
  length_encode : ∀ a, (encode a).length = width
  decode_encode : ∀ a, decode (encode a) = a

namespace Codec

attribute [simp] length_encode decode_encode

/-- The `n` lowest digits to the base 256, lowest first. -/
def digits : Nat → Nat → List Byte
  | 0, _ => []
  | n + 1, x => BitVec.ofNat 8 x :: digits n (x / 256)

def value : List Byte → Nat
  | [] => 0
  | b :: rest => b.toNat + 256 * value rest

/-- How many numbers `n` octets tell apart. -/
def capacity : Nat → Nat
  | 0 => 1
  | n + 1 => 256 * capacity n

@[simp] theorem length_digits (n x : Nat) : (digits n x).length = n := by
  induction n generalizing x with
  | zero => rfl
  | succ n ih => rw [digits, List.length_cons, ih]

theorem value_digits (n x : Nat) (fits : x < capacity n) : value (digits n x) = x := by
  induction n generalizing x with
  | zero =>
    simp only [capacity] at fits
    simp only [digits, value]
    omega
  | succ n ih =>
    have rest : x / 256 < capacity n := by
      simp only [capacity] at fits
      omega
    rw [digits, value, ih _ rest, BitVec.toNat_ofNat]
    exact Nat.mod_add_div x 256

/-- An unsigned word of `n` octets, lowest first. -/
def littleEndian (w n : Nat) (fits : ∀ v : BitVec w, v.toNat < capacity n) :
    Codec (BitVec w) where
  width := n
  encode v := digits n v.toNat
  decode octets := BitVec.ofNat w (value octets)
  length_encode v := length_digits n v.toNat
  decode_encode v := by rw [value_digits n v.toNat (fits v), BitVec.ofNat_toNat, BitVec.setWidth_eq]

def u8 : Codec (BitVec 8) := littleEndian 8 1 fun v => v.isLt
def u16 : Codec (BitVec 16) := littleEndian 16 2 fun v => v.isLt
def u32 : Codec (BitVec 32) := littleEndian 32 4 fun v => v.isLt
def u64 : Codec (BitVec 64) := littleEndian 64 8 fun v => v.isLt

variable {α β : Type}

/-- Two values, one after the other. -/
def prod (c : Codec α) (d : Codec β) : Codec (α × β) where
  width := c.width + d.width
  encode p := c.encode p.1 ++ d.encode p.2
  decode octets := (c.decode (octets.take c.width), d.decode (octets.drop c.width))
  length_encode p := by simp
  decode_encode p := by
    have front : (c.encode p.1 ++ d.encode p.2).take (c.encode p.1).length = c.encode p.1 :=
      List.take_left
    have back : (c.encode p.1 ++ d.encode p.2).drop (c.encode p.1).length = d.encode p.2 :=
      List.drop_left
    rw [length_encode] at front back
    rw [front, back, decode_encode, decode_encode]

/-- A value kept as another one. -/
def retract (c : Codec β) (into : α → β) (back : β → α)
    (left : ∀ a, back (into a) = a) :
    Codec α where
  width := c.width
  encode a := c.encode (into a)
  decode octets := back (c.decode octets)
  length_encode a := c.length_encode _
  decode_encode a := by rw [decode_encode, left]

/-- The octets of the `i`-th record. -/
def chunk (c : Codec α) (octets : List Byte) (i : Nat) : List Byte :=
  (octets.drop (i * c.width)).take c.width

theorem length_flatMap_encode (c : Codec α) (values : List α) :
    (values.flatMap c.encode).length = values.length * c.width := by
  induction values with
  | nil => simp
  | cons a values ih =>
    rw [List.flatMap_cons, List.length_append, ih, length_encode, List.length_cons, Nat.succ_mul]
    exact Nat.add_comm _ _

theorem chunk_flatMap_encode (c : Codec α) (values : List α) (i : Nat) (inside : i < values.length)
    (rest : List Byte) : c.chunk (values.flatMap c.encode ++ rest) i = c.encode values[i] := by
  induction values generalizing i with
  | nil => cases inside
  | cons a values ih =>
    have size := c.length_encode a
    cases i with
    | zero =>
      rw [chunk, Nat.zero_mul, List.drop_zero, List.flatMap_cons, List.append_assoc, ← size,
        List.take_left, List.getElem_cons_zero]
    | succ i =>
      have inside' : i < values.length := Nat.lt_of_succ_lt_succ inside
      have behind := ih i inside'
      rw [chunk] at behind ⊢
      have next : (c.encode a ++ (values.flatMap c.encode ++ rest)).drop (c.encode a).length =
          values.flatMap c.encode ++ rest := List.drop_left
      rw [size] at next
      rw [Nat.succ_mul, Nat.add_comm, ← List.drop_drop, List.flatMap_cons, List.append_assoc, next,
        behind, List.getElem_cons_succ]

/-- The octets of the first values. -/
theorem take_flatMap_encode (c : Codec α) (values : List α) (n : Nat) :
    (values.flatMap c.encode).take (n * c.width) = (values.take n).flatMap c.encode := by
  induction values generalizing n with
  | nil => rw [List.flatMap_nil, List.take_nil, List.take_nil, List.flatMap_nil]
  | cons a values ih =>
    cases n with
    | zero => rw [Nat.zero_mul, List.take_zero, List.take_zero, List.flatMap_nil]
    | succ n =>
      have size : (n + 1) * c.width = (c.encode a).length + n * c.width := by
        rw [c.length_encode, Nat.succ_mul, Nat.add_comm]
      rw [List.flatMap_cons, size, List.take_length_add_append, ih, List.take_succ_cons,
        List.flatMap_cons]

/-- A fixed number of values. -/
def vector (c : Codec α) (n : Nat) : Codec (Vector α n) where
  width := n * c.width
  encode v := v.toList.flatMap c.encode
  decode octets := Vector.ofFn fun i : Fin n => c.decode (c.chunk octets i)
  length_encode v := by rw [length_flatMap_encode, Vector.length_toList]
  decode_encode v := by
    apply Vector.ext
    intro i inside
    have inside' : i < v.toList.length := by simpa using inside
    have cell := c.chunk_flatMap_encode v.toList i inside' []
    rw [List.append_nil] at cell
    rw [Vector.getElem_ofFn]
    simp [cell]

/-- The whole records in some octets. -/
def records (c : Codec α) (octets : List Byte) : List α :=
  (List.range (octets.length / c.width)).map fun i => c.decode (c.chunk octets i)

@[simp] theorem length_records (c : Codec α) (octets : List Byte) :
    (c.records octets).length = octets.length / c.width := by
  simp [records]

theorem getElem_records (c : Codec α) (octets : List Byte) (i : Nat)
    (inside : i < (c.records octets).length) :
    (c.records octets)[i] = c.decode (c.chunk octets i) := by
  simp [records]

@[simp] theorem records_nil (c : Codec α) : c.records [] = [] := by
  simp [records]

/-- Round trip of a file of records, whatever shorter than a record follows it. -/
theorem records_encode (c : Codec α) (positive : 0 < c.width) (values : List α)
    (rest : List Byte) (short : rest.length < c.width) :
    c.records (values.flatMap c.encode ++ rest) = values := by
  have count : (values.flatMap c.encode ++ rest).length / c.width = values.length := by
    rw [List.length_append, length_flatMap_encode, Nat.add_comm,
      Nat.add_mul_div_right _ _ positive, Nat.div_eq_of_lt short, Nat.zero_add]
  apply List.ext_getElem
  · rw [length_records, count]
  · intro i inside inside'
    rw [getElem_records, chunk_flatMap_encode c values i inside', decode_encode]

/-- Reading `n` records' worth of octets gives the first `n` records. -/
theorem records_take (c : Codec α) (positive : 0 < c.width) (octets : List Byte) (n : Nat) :
    c.records (octets.take (n * c.width)) = (c.records octets).take n := by
  apply List.ext_getElem
  · rw [length_records, List.length_take, List.length_take, length_records]
    rcases Nat.le_total (n * c.width) octets.length with enough | short
    · rw [Nat.min_eq_left enough, Nat.mul_div_cancel _ positive,
        Nat.min_eq_left ((Nat.le_div_iff_mul_le positive).mpr enough)]
    · rw [Nat.min_eq_right short, Nat.min_eq_right]
      exact Nat.div_le_of_le_mul (by rwa [Nat.mul_comm])
  · intro i inside inside'
    have early : i < n := by
      rw [List.length_take] at inside'
      omega
    have room : c.width ≤ n * c.width - i * c.width := by
      rw [← Nat.sub_mul]
      exact Nat.le_mul_of_pos_left _ (by omega)
    rw [getElem_records, List.getElem_take, getElem_records, chunk, chunk, List.drop_take,
      List.take_take, Nat.min_eq_left room]

theorem records_drop (c : Codec α) (octets : List Byte) (n : Nat) :
    c.records (octets.drop (n * c.width)) = (c.records octets).drop n := by
  apply List.ext_getElem
  · rw [length_records, List.length_drop, List.length_drop, length_records,
      Nat.mul_comm, Nat.sub_mul_div]
  · intro i inside inside'
    rw [getElem_records, List.getElem_drop, getElem_records, chunk, chunk, List.drop_drop,
      Nat.add_mul]

/-- The first record is at the front. -/
theorem records_cons (c : Codec α) (positive : 0 < c.width) (octets : List Byte)
    (whole : c.width ≤ octets.length) :
    c.records octets = c.decode (octets.take c.width) :: c.records (octets.drop c.width) := by
  have some : 0 < (c.records octets).length := by
    rw [length_records]
    exact Nat.div_pos whole positive
  have rest := c.records_drop octets 1
  rw [Nat.one_mul] at rest
  have front := List.drop_eq_getElem_cons some
  rw [List.drop_zero, getElem_records, chunk, Nat.zero_mul, List.drop_zero] at front
  rw [rest]
  exact front

/-- Fewer octets than a record has hold none. -/
theorem records_short (c : Codec α) (octets : List Byte) (short : octets.length < c.width) :
    c.records octets = [] := by
  apply List.eq_nil_of_length_eq_zero
  rw [length_records]
  exact Nat.div_eq_of_lt short

end Codec

end Lib
