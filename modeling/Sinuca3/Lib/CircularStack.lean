import Mathlib.Data.Vector.Basic
import Mathlib.Logic.Function.Iterate

/-!
# Circular stack

A stack in a ring of `n` places that pushes over its oldest element when it is full and
pops without looking whether there is anything. As long as no more than `n` elements are
on it, it is a stack: `Holds` relates the ring to them, newest first.
-/
namespace Lib

structure CircularStack (α : Type) (n : Nat) where
  buffer : Vector α n
  top : Fin n

namespace CircularStack

variable {α : Type} {n : Nat}

def next (i : Fin n) : Fin n :=
  if more : i.val + 1 < n then ⟨i.val + 1, more⟩ else ⟨0, i.pos⟩

def prev (i : Fin n) : Fin n :=
  if i.val = 0 then ⟨n - 1, Nat.sub_lt i.pos Nat.one_pos⟩
  else ⟨i.val - 1, Nat.lt_of_le_of_lt (Nat.sub_le _ _) i.isLt⟩

def push (s : CircularStack α n) (x : α) : CircularStack α n where
  buffer := s.buffer.set (next s.top) x
  top := next s.top

def pop (s : CircularStack α n) : α × CircularStack α n :=
  (s.buffer[s.top], { s with top := prev s.top })

@[simp] theorem prev_next (i : Fin n) : prev (next i) = i := by
  have inside := i.isLt
  unfold prev next
  apply Fin.ext
  split <;> split <;> simp_all
  omega

theorem val_prev (i : Fin n) : (prev i).val = if i.val = 0 then n - 1 else i.val - 1 := by
  unfold prev
  split <;> rfl

/-- So many places before another, around the ring. -/
theorem iterate_prev (i : Fin n) (k : Nat) (few : k ≤ n) :
    (prev^[k] i).val = if k ≤ i.val then i.val - k else i.val + n - k := by
  have inside := i.isLt
  induction k with
  | zero => simp
  | succ k ih =>
    rw [Function.iterate_succ_apply', val_prev, ih (by omega)]
    split <;> split <;> split <;> omega

/-- Places so close before another are not the one after it. -/
theorem next_ne_iterate_prev (i : Fin n) (k : Nat) (few : k + 1 < n) :
    (next i).val ≠ (prev^[k] i).val := by
  have inside := i.isLt
  rw [iterate_prev i k (by omega)]
  unfold next
  split <;> split <;> dsimp only <;> omega

/-- The newest elements, newest first. -/
def Holds (s : CircularStack α n) (elements : List α) : Prop :=
  elements.length ≤ n ∧ ∀ k (inside : k < elements.length), s.buffer[prev^[k] s.top] = elements[k]

theorem holds_nil (s : CircularStack α n) : s.Holds [] :=
  ⟨Nat.zero_le n, fun _ inside => absurd inside (Nat.not_lt_zero _)⟩

theorem Holds.push {s : CircularStack α n} {elements : List α} (holds : s.Holds elements)
    (room : elements.length < n) (x : α) : (s.push x).Holds (x :: elements) := by
  refine ⟨room, fun k inside => ?_⟩
  cases k with
  | zero => simp [CircularStack.push]
  | succ k =>
    have inside' : k < elements.length := Nat.lt_of_succ_lt_succ inside
    have apart := next_ne_iterate_prev s.top k (by omega)
    have place : prev^[k + 1] (next s.top) = prev^[k] s.top := by
      rw [Function.iterate_succ_apply, prev_next]
    have older := holds.2 k inside'
    simp only [Fin.getElem_fin] at older
    simp only [CircularStack.push, place, Fin.getElem_fin, List.getElem_cons_succ]
    rw [Vector.getElem_set_ne _ _ apart]
    exact older

theorem Holds.pop {s : CircularStack α n} {x : α} {elements : List α}
    (holds : s.Holds (x :: elements)) : s.pop.1 = x ∧ s.pop.2.Holds elements := by
  refine ⟨holds.2 0 (Nat.zero_lt_succ _), Nat.le_of_succ_le holds.1, fun k inside => ?_⟩
  have older := holds.2 (k + 1) (Nat.succ_lt_succ inside)
  rw [List.getElem_cons_succ] at older
  exact older

end CircularStack

end Lib
