import Mathlib.Data.List.Basic

/-!
# Blocks of memory

An allocated block is the list of its cells. Copies that stay inside a block keep its
length, put their source in its place and leave the other cells alone.
-/
namespace Lib.Block

variable {α : Type}

/-- So many cells from a place on. -/
def read (block : List α) (place count : Nat) : List α := (block.drop place).take count

/-- `memcpy` to a place in a block. -/
def copy (block : List α) (place : Nat) (source : List α) : List α :=
  block.take place ++ source ++ block.drop (place + source.length)

theorem getElem?_read (block : List α) (place count i : Nat) :
    (read block place count)[i]? = if i < count then block[place + i]? else none := by
  unfold read
  rw [List.getElem?_take]
  split
  · rw [List.getElem?_drop]
  · rfl

@[simp] theorem length_read (block : List α) (place count : Nat)
    (inside : place + count ≤ block.length) : (read block place count).length = count := by
  unfold read
  rw [List.length_take, List.length_drop]
  omega

theorem read_zero (block : List α) : read block 0 block.length = block := by
  unfold read
  rw [List.drop_zero, List.take_length]

/-- A read of a part of what was read. -/
theorem read_read (block : List α) (place count place' count' : Nat)
    (inside : place' + count' ≤ count) :
    read (read block place count) place' count' = read block (place + place') count' := by
  apply List.ext_getElem?
  intro i
  rw [getElem?_read, getElem?_read, getElem?_read]
  split
  · rw [if_pos (by omega), Nat.add_assoc]
  · rfl

section Copy

variable (block : List α) (place : Nat) (source : List α)

theorem length_copy (inside : place + source.length ≤ block.length) :
    (copy block place source).length = block.length := by
  unfold copy
  rw [List.length_append, List.length_append, List.length_take, List.length_drop]
  omega

theorem getElem?_copy (inside : place + source.length ≤ block.length) (i : Nat) :
    (copy block place source)[i]? =
      if place ≤ i ∧ i < place + source.length then source[i - place]? else block[i]? := by
  have front : (block.take place).length = place := by
    rw [List.length_take]
    omega
  unfold copy
  rw [List.append_assoc]
  rcases Nat.lt_or_ge i place with before | after
  · rw [if_neg (by omega), List.getElem?_append_left (by omega), List.getElem?_take,
      if_pos before]
  · rw [List.getElem?_append_right (by omega), front]
    rcases Nat.lt_or_ge i (place + source.length) with within | behind
    · rw [if_pos ⟨after, within⟩, List.getElem?_append_left (by omega)]
    · rw [if_neg (by omega), List.getElem?_append_right (by omega), List.getElem?_drop]
      congr 1
      omega

/-- A read inside what was copied. -/
theorem read_copy_inside (inside : place + source.length ≤ block.length) (place' count : Nat)
    (lower : place ≤ place') (upper : place' + count ≤ place + source.length) :
    read (copy block place source) place' count = read source (place' - place) count := by
  apply List.ext_getElem?
  intro i
  rw [getElem?_read, getElem?_read]
  split
  · rw [getElem?_copy _ _ _ inside, if_pos (by omega)]
    congr 1
    omega
  · rfl

/-- A read beside it. -/
theorem read_copy_outside (inside : place + source.length ≤ block.length) (place' count : Nat)
    (apart : place' + count ≤ place ∨ place + source.length ≤ place') :
    read (copy block place source) place' count = read block place' count := by
  apply List.ext_getElem?
  intro i
  rw [getElem?_read, getElem?_read]
  split
  · rw [getElem?_copy _ _ _ inside, if_neg (by omega)]
  · rfl

end Copy

end Lib.Block
