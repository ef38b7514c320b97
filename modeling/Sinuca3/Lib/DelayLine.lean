import Sinuca3.Lib.Machine

/-!
# Delay lines

A line of values of fixed length: a value that goes in at one end pushes another out at
the other, or goes straight through a line of length zero.
-/
namespace Lib.DelayLine

variable {α : Type}

/-- The line after a value goes in, and the value that comes out. -/
def step (stages : List α) (input : α) : List α × List α :=
  ((stages ++ [input]).tail, (stages ++ [input]).take 1)

@[simp] theorem length_step (stages : List α) (input : α) :
    (step stages input).1.length = stages.length := by
  simp [step]

theorem step_eq (stages : List α) (input : α) :
    ∃ out, stages ++ [input] = out :: (step stages input).1 ∧ (step stages input).2 = [out] := by
  cases stages with
  | nil => exact ⟨input, rfl, rfl⟩
  | cons first stages => exact ⟨first, rfl, rfl⟩

theorem run_eq (stages inputs : List α) :
    Machine.run step stages inputs =
      ((stages ++ inputs).drop inputs.length, (stages ++ inputs).take inputs.length) := by
  induction inputs generalizing stages with
  | nil => simp
  | cons input inputs ih =>
    obtain ⟨out, shifted, emitted⟩ := step_eq stages input
    have whole : stages ++ input :: inputs = out :: ((step stages input).1 ++ inputs) := by
      rw [← List.singleton_append, ← List.append_assoc, shifted, List.cons_append]
    rw [Machine.run_cons, ih, emitted, whole]
    rfl

/-- What goes in comes out, after as many steps as the line is long; before that, what was
in the line. -/
theorem getElem?_run (stages inputs : List α) {i : Nat} (inside : i < inputs.length) :
    (Machine.run step stages inputs).2[i]? =
      if i < stages.length then stages[i]? else inputs[i - stages.length]? := by
  rw [run_eq]
  dsimp only
  rw [List.getElem?_take, if_pos inside, List.getElem?_append]

end Lib.DelayLine
