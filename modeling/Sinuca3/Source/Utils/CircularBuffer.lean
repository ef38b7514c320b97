import Mathlib.Data.List.Basic
import Mathlib.Data.Nat.ModEq
import Mathlib.Logic.Function.Basic

/-!
# Circular buffer

`utils/circular_buffer.cpp`. Slot `k` of `buffer` is the `elementSize` octets at
`k * elementSize`, so an element is copied whole and the element size does not
appear. A size of zero asks for a buffer that grows.

This is the buffer of a size for which a block with room for it is allocated. How
many octets there are, which an `int` has to count, is in `CircularBufferExtent`,
with what the code writes where they do not fit.

The cursors and counters of a `CircularBuffer` value are consistent by
construction: the invariant the code relies on is carried by the structure, and
each operation proves it for the buffer it returns. `contents` is the queue the
ring stands for.
-/
namespace Sinuca3.Source

def defaultBufferSize : Nat := 8

/-- A buffer allocated with limit `maxBufferSize`, which never changes: zero if
the buffer can grow indefinitely. -/
structure CircularBuffer (α : Type) (maxBufferSize : Nat) where
  buffer : Nat → α
  occupation : Nat
  bufferSize : Nat
  startOfBuffer : Nat
  endOfBuffer : Nat
  start_lt : startOfBuffer < bufferSize
  occupation_le : occupation ≤ bufferSize
  end_eq : endOfBuffer = (startOfBuffer + occupation) % bufferSize
  limit : maxBufferSize ≠ 0 → bufferSize = maxBufferSize

/-- Advancing a cursor by one slot, back to the first after the last. -/
theorem advance_mod (cursor size n : Nat) :
    ((if cursor + 1 = size then 0 else cursor + 1) + n) % size = (cursor + (n + 1)) % size := by
  split
  · rename_i last
    rw [show cursor + (n + 1) = n + size by omega, Nat.add_mod_right, Nat.zero_add]
  · rw [show cursor + 1 + n = cursor + (n + 1) by omega]

namespace CircularBuffer

variable {α : Type} {maxBufferSize : Nat}

/-- `Allocate`, for a size that `CircularBufferExtent.Fits`; the slots hold whatever `malloc`
returned. -/
def allocate [Inhabited α] (bufferSize : Nat) : CircularBuffer α bufferSize where
  buffer := fun _ => default
  occupation := 0
  bufferSize := if bufferSize = 0 then defaultBufferSize else bufferSize
  startOfBuffer := 0
  endOfBuffer := 0
  start_lt := by unfold defaultBufferSize; split <;> omega
  occupation_le := Nat.zero_le _
  end_eq := by simp
  limit := by intro bounded; rw [if_neg bounded]

def isFull (b : CircularBuffer α maxBufferSize) : Bool := b.occupation == b.bufferSize

def isEmpty (b : CircularBuffer α maxBufferSize) : Bool := b.occupation == 0

/-- The growth branch of `Enqueue`: twice the slots, the tail of the ring first
and the wrapped head after it. -/
def grow (b : CircularBuffer α maxBufferSize) (full : b.occupation = b.bufferSize)
    (growable : maxBufferSize = 0) : CircularBuffer α maxBufferSize where
  buffer :=
    if b.startOfBuffer ≠ 0 then
      let offset := b.bufferSize - b.startOfBuffer
      fun k => if k < offset then b.buffer (b.startOfBuffer + k) else b.buffer (k - offset)
    else b.buffer
  occupation := b.occupation
  bufferSize := b.bufferSize * 2
  startOfBuffer := 0
  endOfBuffer := b.bufferSize
  start_lt := by have := b.start_lt; omega
  occupation_le := by omega
  end_eq := by
    have := b.start_lt
    rw [Nat.zero_add, full, Nat.mod_eq_of_lt (by omega)]
  limit := fun bounded => absurd growable bounded

theorem grow_free (b : CircularBuffer α maxBufferSize) (full : b.occupation = b.bufferSize)
    (growable : maxBufferSize = 0) :
    (b.grow full growable).occupation < (b.grow full growable).bufferSize := by
  have := b.start_lt
  simp only [grow]
  omega

/-- The store of `Enqueue`, once there is a free slot. -/
def store (b : CircularBuffer α maxBufferSize) (elementInput : α)
    (free : b.occupation < b.bufferSize) :
    CircularBuffer α maxBufferSize where
  buffer := Function.update b.buffer b.endOfBuffer elementInput
  occupation := b.occupation + 1
  bufferSize := b.bufferSize
  startOfBuffer := b.startOfBuffer
  endOfBuffer := if b.endOfBuffer + 1 = b.bufferSize then 0 else b.endOfBuffer + 1
  start_lt := b.start_lt
  occupation_le := free
  end_eq := by
    have inside : b.endOfBuffer < b.bufferSize := by
      rw [b.end_eq]; exact Nat.mod_lt _ (by omega)
    have next := advance_mod b.endOfBuffer b.bufferSize 0
    rw [Nat.add_zero, Nat.mod_eq_of_lt (by split <;> omega), Nat.zero_add] at next
    rw [next, b.end_eq, ← Nat.add_assoc, Nat.mod_add_mod]
  limit := b.limit

/-- `Enqueue`; `none` is the return code 1, which changes nothing. -/
def enqueue (b : CircularBuffer α maxBufferSize) (elementInput : α) :
    Option (CircularBuffer α maxBufferSize) :=
  if full : b.occupation = b.bufferSize then
    if bounded : maxBufferSize ≠ 0 then none
    else
      some ((b.grow full (not_not.mp bounded)).store elementInput
        (b.grow_free full (not_not.mp bounded)))
  else some (b.store elementInput (Nat.lt_of_le_of_ne b.occupation_le full))

/-- The cursor updates of `Dequeue` on a buffer that is not empty. -/
def release (b : CircularBuffer α maxBufferSize) (nonempty : b.occupation ≠ 0) :
    CircularBuffer α maxBufferSize :=
  { b with
    occupation := b.occupation - 1
    startOfBuffer := if b.startOfBuffer + 1 = b.bufferSize then 0 else b.startOfBuffer + 1
    start_lt := by have := b.start_lt; split <;> omega
    occupation_le := by have := b.occupation_le; omega
    end_eq := by rw [advance_mod, b.end_eq, Nat.sub_add_cancel (by omega)] }

/-- `Dequeue`; `none` is the return code 1, on which the output is zero-filled. -/
def dequeue (b : CircularBuffer α maxBufferSize) : Option (α × CircularBuffer α maxBufferSize) :=
  if empty : b.occupation = 0 then none
  else some (b.buffer b.startOfBuffer, b.release empty)

def flush (b : CircularBuffer α maxBufferSize) : CircularBuffer α maxBufferSize :=
  { b with
    occupation := 0
    startOfBuffer := b.endOfBuffer
    start_lt := by
      rw [b.end_eq]
      exact Nat.mod_lt _ (Nat.lt_of_le_of_lt (Nat.zero_le _) b.start_lt)
    occupation_le := Nat.zero_le _
    end_eq := by
      have inside : b.endOfBuffer < b.bufferSize := by
        rw [b.end_eq]; exact Nat.mod_lt _ (Nat.lt_of_le_of_lt (Nat.zero_le _) b.start_lt)
      rw [Nat.add_zero, Nat.mod_eq_of_lt inside] }

/-- The queue in the ring, oldest element first. -/
def contents (b : CircularBuffer α maxBufferSize) : List α :=
  (List.range b.occupation).map fun k => b.buffer ((b.startOfBuffer + k) % b.bufferSize)

@[simp] theorem contents_length (b : CircularBuffer α maxBufferSize) :
    b.contents.length = b.occupation := by
  simp [contents]

@[simp] theorem contents_allocate [Inhabited α] (n : Nat) :
    (allocate n : CircularBuffer α n).contents = [] := rfl

@[simp] theorem contents_flush (b : CircularBuffer α maxBufferSize) : b.flush.contents = [] := rfl

/-- A store writes the slot after the queue, which no queued element occupies. -/
theorem contents_store (b : CircularBuffer α maxBufferSize) (x : α)
    (free : b.occupation < b.bufferSize) :
    (b.store x free).contents = b.contents ++ [x] := by
  have older : ∀ k ∈ List.range b.occupation,
      Function.update b.buffer b.endOfBuffer x ((b.startOfBuffer + k) % b.bufferSize) =
        b.buffer ((b.startOfBuffer + k) % b.bufferSize) := by
    intro k member
    have near : k < b.occupation := List.mem_range.mp member
    apply Function.update_of_ne
    rw [b.end_eq]
    intro same
    have distinct : k % b.bufferSize = b.occupation % b.bufferSize :=
      Nat.ModEq.add_left_cancel' b.startOfBuffer same
    rw [Nat.mod_eq_of_lt (by omega), Nat.mod_eq_of_lt free] at distinct
    omega
  simp only [contents, store, List.range_succ, List.map_append, List.map_cons, List.map_nil]
  rw [List.map_congr_left older, ← b.end_eq, Function.update_self]

/-- The two copies of the growth branch straighten the ring. -/
theorem buffer_grow (b : CircularBuffer α maxBufferSize) (full : b.occupation = b.bufferSize)
    (growable : maxBufferSize = 0) {k : Nat} (inside : k < b.bufferSize) :
    (b.grow full growable).buffer k = b.buffer ((b.startOfBuffer + k) % b.bufferSize) := by
  have start := b.start_lt
  simp only [grow]
  by_cases unwrapped : b.startOfBuffer = 0
  · simp [unwrapped, Nat.mod_eq_of_lt inside]
  · simp only [ne_eq, unwrapped, not_false_eq_true, if_true]
    split
    · rw [Nat.mod_eq_of_lt (by omega)]
    · rw [Nat.mod_eq_sub_mod (by omega), Nat.mod_eq_of_lt (by omega)]
      congr 1
      omega

theorem contents_grow (b : CircularBuffer α maxBufferSize) (full : b.occupation = b.bufferSize)
    (growable : maxBufferSize = 0) : (b.grow full growable).contents = b.contents := by
  apply List.map_congr_left
  intro k member
  have inside : k < b.bufferSize := full ▸ List.mem_range.mp member
  have straight : (0 + k) % (b.bufferSize * 2) = k := by
    rw [Nat.zero_add, Nat.mod_eq_of_lt (by omega)]
  change (b.grow full growable).buffer ((0 + k) % (b.bufferSize * 2)) = _
  rw [straight, b.buffer_grow full growable inside]

/-- A refused element leaves no trace; an accepted one goes to the back. -/
theorem enqueue_eq (b : CircularBuffer α maxBufferSize) (x : α) :
    (b.enqueue x = none ∧ 0 < maxBufferSize ∧ b.contents.length = maxBufferSize) ∨
    (∃ b', b.enqueue x = some b' ∧ b'.contents = b.contents ++ [x] ∧
      ¬ (0 < maxBufferSize ∧ b.contents.length = maxBufferSize)) := by
  rw [contents_length]
  by_cases full : b.occupation = b.bufferSize
  · by_cases bounded : maxBufferSize ≠ 0
    · exact Or.inl ⟨by simp [enqueue, full, bounded], by omega, full.trans (b.limit bounded)⟩
    · have grown : b.enqueue x = some ((b.grow full (not_not.mp bounded)).store x
          (b.grow_free full (not_not.mp bounded))) := by
        rw [enqueue, dif_pos full, dif_neg bounded]
      refine Or.inr ⟨_, grown, ?_, by omega⟩
      rw [contents_store, contents_grow]
  · have stored : b.enqueue x = some (b.store x (Nat.lt_of_le_of_ne b.occupation_le full)) := by
      rw [enqueue, dif_neg full]
    refine Or.inr ⟨_, stored, contents_store _ _ _, ?_⟩
    rintro ⟨bounded, same⟩
    exact full (same.trans (b.limit (by omega)).symm)

/-- The oldest element is the one that leaves. -/
theorem dequeue_eq (b : CircularBuffer α maxBufferSize) :
    (b.dequeue = none ∧ b.contents = []) ∨
    (∃ x b', b.dequeue = some (x, b') ∧ b.contents = x :: b'.contents) := by
  by_cases empty : b.occupation = 0
  · exact Or.inl ⟨by simp [dequeue, empty], by simp [contents, empty]⟩
  · have taken : b.dequeue = some (b.buffer b.startOfBuffer, b.release empty) := by
      rw [dequeue, dif_neg empty]
    refine Or.inr ⟨_, _, taken, ?_⟩
    obtain ⟨n, count⟩ := Nat.exists_eq_succ_of_ne_zero empty
    simp only [contents, release, count, List.range_succ_eq_map, List.map_cons, List.map_map]
    rw [Nat.add_zero, Nat.mod_eq_of_lt b.start_lt]
    congr 1
    apply List.map_congr_left
    intro k _
    simp only [Function.comp_apply, advance_mod]

end CircularBuffer

end Sinuca3.Source
