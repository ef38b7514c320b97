import Mathlib.Data.Fintype.Order
import Mathlib.Data.Set.Finite.Basic
import Mathlib.Logic.Relation
import Mathlib.Order.WellFounded
import Sinuca3.Lib.Interaction

/-!
# Recursion that need not end

The body of a recursive function is a program whose operations are the recursive
calls. `evaluate` unfolds it as often as the fuel allows. The calls a body may make
are a relation on arguments: the function returns wherever that is well founded, so
wherever it is acyclic over finitely many arguments.
-/
namespace Lib.Interaction

variable {Op α β ρ ρ' : Type} {Ans : Op → Type}

namespace Prog

def bind : Prog Op Ans ρ → (ρ → Prog Op Ans ρ') → Prog Op Ans ρ'
  | .ret value, k => k value
  | .call op next, k => .call op fun answer => (next answer).bind k

/-- Some answers to the operations before make the program issue `op`. -/
inductive Issues : Prog Op Ans ρ → Op → Prop where
  | here (op : Op) (next : Ans op → Prog Op Ans ρ) : Issues (.call op next) op
  | later (op : Op) (next : Ans op → Prog Op Ans ρ) (answer : Ans op) {op' : Op} :
      Issues (next answer) op' → Issues (.call op next) op'

theorem issues_bind {p : Prog Op Ans ρ} {k : ρ → Prog Op Ans ρ'} {op : Op}
    (h : Issues (p.bind k) op) : Issues p op ∨ ∃ value, Issues (k value) op := by
  induction p with
  | ret value => exact .inr ⟨value, h⟩
  | call first next ih =>
    cases h with
    | here => exact .inl (.here _ _)
    | later _ _ answer h =>
      obtain issued | continued := ih answer h
      · exact .inl (.later _ _ answer issued)
      · exact .inr continued

end Prog

/-- A program that calls a function from `α` to `β` and computes a `ρ`. -/
abbrev Calling (α β ρ : Type) : Type := Prog α (fun _ => β) ρ

/-- Calls are answered by `f`, which may fail to return. -/
def Prog.answer (f : α → Option β) : Calling α β ρ → Option ρ
  | .ret value => some value
  | .call a next => (f a).bind fun b => (next b).answer f

/-- `g` returns what `f` returns, and perhaps more. -/
def Extends (f g : α → Option β) : Prop := ∀ a b, f a = some b → g a = some b

theorem Prog.answer_mono {f g : α → Option β} (more : Extends f g) {p : Calling α β ρ} {r : ρ}
    (h : p.answer f = some r) : p.answer g = some r := by
  induction p with
  | ret value => exact h
  | call a next ih =>
    obtain ⟨b, answered, rest⟩ := Option.bind_eq_some_iff.mp h
    simp only [Prog.answer, more a b answered, Option.bind_some]
    exact ih b rest

/-- `p` can compute `r` when its calls meet `P`. -/
inductive Computes (P : α → β → Prop) : Calling α β ρ → ρ → Prop where
  | ret (value : ρ) : Computes P (.ret value) value
  | call (a : α) (b : β) (next : β → Calling α β ρ) {r : ρ} :
      P a b → Computes P (next b) r → Computes P (.call a next) r

theorem Computes.of_ret {P : α → β → Prop} {value r : ρ}
    (h : Computes P (.ret value : Calling α β ρ) r) : r = value := by
  cases h
  rfl

theorem Computes.of_call {P : α → β → Prop} {a : α} {next : β → Calling α β ρ} {r : ρ}
    (h : Computes P (.call a next) r) : ∃ b, P a b ∧ Computes P (next b) r := by
  cases h with
  | call _ b _ met rest => exact ⟨b, met, rest⟩

theorem computes_of_answer {P : α → β → Prop} {f : α → Option β}
    (meets : ∀ a b, f a = some b → P a b) {p : Calling α β ρ} {r : ρ}
    (h : p.answer f = some r) : Computes P p r := by
  induction p with
  | ret value =>
    obtain rfl := Option.some.inj h
    exact .ret value
  | call a next ih =>
    obtain ⟨b, answered, rest⟩ := Option.bind_eq_some_iff.mp h
    exact .call a b next (meets a b answered) (ih b rest)

theorem Computes.of_bind {P : α → β → Prop} {p : Calling α β ρ} {k : ρ → Calling α β ρ'} {r : ρ'}
    (h : Computes P (p.bind k) r) : ∃ value, Computes P p value ∧ Computes P (k value) r := by
  induction p with
  | ret value => exact ⟨value, .ret value, h⟩
  | call a next ih =>
    obtain ⟨b, met, rest⟩ := h.of_call
    obtain ⟨value, first, second⟩ := ih b rest
    exact ⟨value, .call a b next met first, second⟩

/-- Every call is one that returns, where the calls before it return what meets `P`. -/
inductive Ends (P : α → β → Prop) : Calling α β ρ → Prop where
  | ret (value : ρ) : Ends P (.ret value)
  | call (a : α) (next : β → Calling α β ρ) :
      (∃ b, P a b) → (∀ b, P a b → Ends P (next b)) → Ends P (.call a next)

theorem Ends.bind {P : α → β → Prop} {p : Calling α β ρ} {k : ρ → Calling α β ρ'}
    (first : Ends P p) (second : ∀ value, Ends P (k value)) : Ends P (p.bind k) := by
  induction first with
  | ret value => exact second value
  | call a next returns _ ih => exact .call a _ returns ih

theorem Ends.of_issues {P : α → β → Prop} {p : Calling α β ρ}
    (returns : ∀ a, p.Issues a → ∃ b, P a b) : Ends P p := by
  induction p with
  | ret value => exact .ret value
  | call a next ih =>
    exact .call a next (returns a (.here _ _)) fun b _ =>
      ih b fun a' issued => returns a' (.later _ _ b issued)

section Evaluation

variable (body : α → Calling α β β)

/-- At most `fuel` calls are open at a time; `none` is not having returned. -/
def evaluate : Nat → α → Option β
  | 0, _ => none
  | fuel + 1, a => (body a).answer (evaluate fuel)

def Evaluates (a : α) (b : β) : Prop := ∃ fuel, evaluate body fuel a = some b

theorem evaluate_succ (fuel : Nat) : Extends (evaluate body fuel) (evaluate body (fuel + 1)) := by
  induction fuel with
  | zero =>
    intro a b h
    cases h
  | succ fuel ih => exact fun a b h => Prog.answer_mono ih h

theorem evaluate_mono {fuel more : Nat} (enough : fuel ≤ more) :
    Extends (evaluate body fuel) (evaluate body more) := by
  induction enough with
  | refl => exact fun a b h => h
  | step _ ih => exact fun a b h => evaluate_succ body _ a b (ih a b h)

/-- What one unfolding preserves holds of every result. -/
theorem evaluate_induction {P : α → β → Prop} (step : ∀ a b, Computes P (body a) b → P a b)
    (fuel : Nat) : ∀ a b, evaluate body fuel a = some b → P a b := by
  induction fuel with
  | zero =>
    intro a b h
    cases h
  | succ fuel ih => exact fun a b h => step a b (computes_of_answer ih h)

/-- A program whose calls all return comes to its end. -/
theorem Ends.answers {p : Calling α β ρ} (ends : Ends (Evaluates body) p) :
    ∃ fuel r, p.answer (evaluate body fuel) = some r := by
  induction ends with
  | ret value => exact ⟨0, value, rfl⟩
  | call a next returns _ ih =>
    obtain ⟨b, fuel, answered⟩ := returns
    obtain ⟨fuel', r, rest⟩ := ih b ⟨fuel, answered⟩
    refine ⟨max fuel fuel', r, ?_⟩
    have first := evaluate_mono body (Nat.le_max_left fuel fuel') a b answered
    have second := Prog.answer_mono (evaluate_mono body (Nat.le_max_right fuel fuel')) rest
    simp only [Prog.answer, first, Option.bind_some]
    exact second

theorem evaluates_of_ends {a : α} (ends : Ends (Evaluates body) (body a)) :
    ∃ b, Evaluates body a b := by
  obtain ⟨fuel, b, answered⟩ := ends.answers
  exact ⟨b, fuel + 1, answered⟩

/-- A program all of whose possible calls return comes to its end. -/
theorem answers_of_evaluates {p : Calling α β ρ}
    (returns : ∀ a, p.Issues a → ∃ b, Evaluates body a b) :
    ∃ fuel r, p.answer (evaluate body fuel) = some r :=
  (Ends.of_issues returns).answers

/-- The function returns where its possible calls are well founded. -/
theorem evaluates_of_acc {a : α} (h : Acc (fun a' a => (body a).Issues a') a) :
    ∃ b, Evaluates body a b := by
  induction h with
  | intro a _ ih =>
    exact evaluates_of_ends body (.of_issues ih)

/-- Arguments whose bodies first call another of them never return. -/
theorem evaluate_eq_none {S : α → Prop}
    (calls : ∀ a, S a → ∃ a' next, body a = .call a' next ∧ S a') (fuel : Nat) :
    ∀ a, S a → evaluate body fuel a = none := by
  induction fuel with
  | zero => exact fun a _ => rfl
  | succ fuel ih =>
    intro a inside
    obtain ⟨a', next, eq, inside'⟩ := calls a inside
    simp only [evaluate, eq, Prog.answer, ih a' inside', Option.bind_none]

end Evaluation

open Relation in
/-- Steps that stay inside a finite set and never come back are well founded. -/
theorem acc_of_acyclic {r : α → α → Prop} {S : Set α} (finite : S.Finite) {a : α}
    (inside : ∀ b c, ReflTransGen r a b → r b c → c ∈ S)
    (acyclic : ∀ b, ReflTransGen r a b → ¬ TransGen r b b) :
    Acc (fun c b => r b c) a := by
  let T : Set α := {b | ReflTransGen r a b}
  have reached : T.Finite := by
    refine (finite.insert a).subset fun b h => ?_
    cases ReflTransGen.cases_tail h with
    | inl eq => exact .inl eq
    | inr h =>
      obtain ⟨c, before, step⟩ := h
      exact .inr (inside c b before step)
  have : Finite T := reached
  let after : T → T → Prop := fun c b => TransGen r b c
  have : IsTrans T after := ⟨fun _ _ _ h h' => h'.trans h⟩
  have : Std.Irrefl after := ⟨fun b h => acyclic b b.2 h⟩
  have founded : WellFounded after := Finite.wellFounded_of_trans_of_irrefl after
  have all : ∀ b : T, Acc (fun c b => r b c) b.1 := by
    intro b
    induction founded.apply b with
    | intro b _ ih =>
      refine .intro _ fun c step => ?_
      exact ih ⟨c, ReflTransGen.tail b.2 step⟩ (.single step)
  exact all ⟨a, .refl⟩

end Lib.Interaction
