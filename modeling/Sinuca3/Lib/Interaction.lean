import Mathlib.Logic.Function.Basic

/-!
# Interactive programs over shared state

A `Prog` is a terminating program that issues operations and continues with
their answers; a handler says what an operation answers and does to a shared
state. Programs whose handlers commute operation by operation commute as a
whole, whatever they compute from the answers: this is what makes the order of
independent programs irrelevant.
-/
namespace Lib.Interaction

inductive Prog (Op : Type) (Ans : Op → Type) (ρ : Type) : Type where
  | ret (value : ρ)
  | call (op : Op) (next : Ans op → Prog Op Ans ρ)

/-- An operation's answer and effect on the shared state. -/
abbrev Handler (S Op : Type) (Ans : Op → Type) : Type := (op : Op) → S → Ans op × S

variable {S Op Op' : Type} {Ans : Op → Type} {Ans' : Op' → Type} {ρ ρ' : Type}

def Prog.run (handle : Handler S Op Ans) : Prog Op Ans ρ → S → ρ × S
  | .ret value, s => (value, s)
  | .call op next, s => (next (handle op s).1).run handle (handle op s).2

/-- Two state actions give the same answers and the same state in either order. -/
def Independent {A B : Type} (f : S → A × S) (g : S → B × S) : Prop :=
  ∀ s, (f (g s).2).1 = (f s).1 ∧ (g (f s).2).1 = (g s).1 ∧ (g (f s).2).2 = (f (g s).2).2

theorem Independent.symm {A B : Type} {f : S → A × S} {g : S → B × S}
    (h : Independent f g) : Independent g f := fun s =>
  ⟨(h s).2.1, (h s).1, (h s).2.2.symm⟩

/-- A program is independent of an action all its operations are independent of. -/
theorem Prog.run_independent {B : Type} (handle : Handler S Op Ans) (g : S → B × S)
    (ops : ∀ op, Independent (handle op) g) (p : Prog Op Ans ρ) :
    Independent (p.run handle) g := by
  induction p with
  | ret value => exact fun s => ⟨rfl, rfl, rfl⟩
  | call op next ih =>
    intro s
    obtain ⟨answer, result, state⟩ := ops op s
    obtain ⟨answer', result', state'⟩ := ih (handle op s).1 (handle op s).2
    simp only [Prog.run]
    rw [answer, ← state]
    exact ⟨answer', result'.trans result, state'⟩

/-- Programs with independent operations are independent. -/
theorem Prog.run_independent_run (handle : Handler S Op Ans) (handle' : Handler S Op' Ans')
    (ops : ∀ op op', Independent (handle op) (handle' op'))
    (p : Prog Op Ans ρ) (q : Prog Op' Ans' ρ') : Independent (p.run handle) (q.run handle') :=
  p.run_independent handle _ fun op =>
    (q.run_independent handle' _ fun op' => (ops op op').symm).symm

section Family

variable {κ : Type} [DecidableEq κ] {β : κ → Type}

/-- An action on one member of a family, seen on the whole family. -/
def onMember {A : Type} (k : κ) (f : β k → A × β k) (s : ∀ k, β k) : A × (∀ k, β k) :=
  ((f (s k)).1, Function.update s k (f (s k)).2)

theorem onMember_independent_of_ne {A B : Type} {k k' : κ} (different : k ≠ k')
    (f : β k → A × β k) (g : β k' → B × β k') : Independent (onMember k f) (onMember k' g) := by
  intro s
  simp only [onMember, Function.update_of_ne different, Function.update_of_ne different.symm]
  exact ⟨trivial, trivial, Function.update_comm different _ _ _⟩

theorem onMember_independent {A B : Type} (k : κ) (f : β k → A × β k) (g : β k → B × β k)
    (h : Independent f g) : Independent (onMember k f) (onMember k g) := by
  intro s
  obtain ⟨answer, result, state⟩ := h (s k)
  simp only [onMember, Function.update_self, Function.update_idem]
  exact ⟨answer, result, by rw [state]⟩

end Family

end Lib.Interaction
