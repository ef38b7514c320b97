import Mathlib.Data.List.Basic
import Mathlib.Logic.Function.Basic

/-!
# Arrays in part in use

An array is a function of the index, of which the first cells are in use. Programs write
to single cells, append behind the last one, move the rest to the front when the first
ones are done with, and run over the cells until one fails a test.
-/
namespace Lib.Cells

variable {α : Type} (cells : Nat → α)

/-- The cells in use. -/
def used (count : Nat) : List α := (List.range count).map cells

@[simp] theorem length_used (count : Nat) : (used cells count).length = count := by
  simp [used]

theorem getElem?_used (count i : Nat) :
    (used cells count)[i]? = if i < count then some (cells i) else none := by
  unfold used
  by_cases inside : i < count
  · rw [if_pos inside, List.getElem?_map, List.getElem?_range inside]
    rfl
  · rw [if_neg inside, List.getElem?_eq_none (by simpa using inside)]

/-- One more cell. -/
theorem used_succ (count : Nat) : used cells (count + 1) = used cells count ++ [cells count] := by
  simp [used, List.range_succ]

/-- Cells that agree as far as they are in use. -/
theorem used_congr {cells cells' : Nat → α} {count : Nat}
    (same : ∀ i < count, cells i = cells' i) : used cells count = used cells' count :=
  List.map_congr_left fun i member => same i (List.mem_range.mp member)

section Write

theorem used_update (count i : Nat) (x : α) :
    used (Function.update cells i x) count = (used cells count).set i x := by
  apply List.ext_getElem?
  intro k
  rw [getElem?_used, List.getElem?_set, getElem?_used]
  by_cases here : i = k
  · subst here
    simp
  · rw [Function.update_of_ne (Ne.symm here), if_neg here]

variable {cells} {count : Nat} {front back : List α} {x : α}

theorem cell_of_split (split : used cells count = front ++ x :: back) :
    cells front.length = x := by
  have lengths := congrArg List.length split
  rw [length_used, List.length_append, List.length_cons] at lengths
  have here := getElem?_used cells count front.length
  rw [if_pos (by omega), split, List.getElem?_append_right (Nat.le_refl _), Nat.sub_self] at here
  cases here
  rfl

theorem length_lt_of_split (split : used cells count = front ++ x :: back) :
    front.length < count := by
  rw [← length_used cells count, split, List.length_append, List.length_cons]
  omega

theorem used_update_of_split (split : used cells count = front ++ x :: back) (y : α) :
    used (Function.update cells front.length y) count = front ++ y :: back := by
  rw [used_update, split]
  simp

end Write

/-- The rest moved to the front. -/
theorem used_shift {count i : Nat} (le : i ≤ count) :
    used (fun k => if k < count - i then cells (i + k) else cells k) (count - i) =
      (used cells count).drop i := by
  apply List.ext_getElem?
  intro k
  rw [getElem?_used, List.getElem?_drop, getElem?_used]
  by_cases inside : k < count - i
  · rw [if_pos inside, if_pos inside, if_pos (by omega)]
  · rw [if_neg inside, if_neg (by omega)]

section Skip

variable (passes : α → Bool)

/-- The loops `while (..) ++i`, with `n` cells left. -/
def skip : Nat → Nat → Nat
  | 0, i => i
  | n + 1, i => if passes (cells i) then skip n (i + 1) else i

/-- A loop that stays within the cells in use stops behind those that pass. -/
theorem skip_used (front back : List α) (split : used cells (front ++ back).length = front ++ back) :
    skip cells passes back.length front.length =
      front.length + (back.takeWhile passes).length := by
  induction back generalizing front with
  | nil => rfl
  | cons x back ih =>
    rw [List.length_cons, skip, cell_of_split split, List.takeWhile_cons]
    split
    · have later := ih (front ++ [x]) (by simpa using split)
      rw [List.length_append, List.length_singleton] at later
      rw [later, List.length_cons]
      omega
    · rfl

/-- With more cells left it stops there too, if one of those in use does not pass. -/
theorem skip_more (n m i : Nat) (stops : skip cells passes n i < i + n) :
    skip cells passes (n + m) i = skip cells passes n i := by
  induction n generalizing i with
  | zero => exact absurd stops (Nat.lt_irrefl _)
  | succ n ih =>
    rw [Nat.add_right_comm, skip]
    rw [skip] at stops ⊢
    split
    · rename_i here
      rw [if_pos here] at stops
      exact ih (i + 1) (by omega)
    · rfl

end Skip

end Lib.Cells
