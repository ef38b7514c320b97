import Mathlib.Data.List.Basic
import Mathlib.Logic.Function.Iterate

/-!
# Replacing the first match

Entries of a queue are marked in order: each time, the first that is not marked yet. With
`f x = some y` an element `x` matches and becomes `y`, which no longer does.
-/
namespace Lib.FirstMatch

variable {α : Type} (f : α → Option α)

/-- The elements that match. -/
def count (xs : List α) : Nat := xs.countP fun x => (f x).isSome

@[simp] theorem count_nil : count f [] = 0 := rfl

@[simp] theorem count_append (xs ys : List α) :
    count f (xs ++ ys) = count f xs + count f ys :=
  List.countP_append

theorem count_eq_zero {xs : List α} (none : ∀ x ∈ xs, f x = none) : count f xs = 0 := by
  unfold count
  rw [List.countP_eq_zero]
  intro x member
  simp [none x member]

/-- Some element matches. -/
theorem exists_of_count {xs : List α} (some : 0 < count f xs) : ∃ x ∈ xs, (f x).isSome :=
  List.countP_pos_iff.mp some

variable {f}

theorem replaceF_append_of_some {xs : List α} (some : ∃ x ∈ xs, (f x).isSome) (ys : List α) :
    (xs ++ ys).replaceF f = xs.replaceF f ++ ys := by
  induction xs with
  | nil =>
    obtain ⟨x, member, _⟩ := some
    cases member
  | cons x xs ih =>
    rw [List.cons_append, List.replaceF_cons, List.replaceF_cons]
    rcases here : f x with _ | y
    · dsimp only
      rw [ih]
      · rfl
      · obtain ⟨z, member, found⟩ := some
        rcases List.mem_cons.mp member with rfl | member
        · rw [here] at found
          cases found
        · exact ⟨z, member, found⟩
    · rfl

theorem replaceF_append_of_none {xs : List α} (none : ∀ x ∈ xs, f x = none) (ys : List α) :
    (xs ++ ys).replaceF f = xs ++ ys.replaceF f := by
  induction xs with
  | nil => rfl
  | cons x xs ih =>
    rw [List.cons_append, List.replaceF_cons, none x (List.mem_cons_self ..)]
    dsimp only
    rw [ih fun y member => none y (List.mem_cons_of_mem x member)]
    rfl

/-- What a match keeps, all elements do. -/
theorem forall_replaceF {P : α → Prop} (keeps : ∀ x y, f x = some y → P x → P y) {xs : List α}
    (all : ∀ x ∈ xs, P x) : ∀ x ∈ xs.replaceF f, P x := by
  induction xs with
  | nil => exact all
  | cons x xs ih =>
    have later : ∀ y ∈ xs, P y := fun y member => all y (List.mem_cons_of_mem x member)
    rw [List.replaceF_cons]
    rcases here : f x with _ | y
    · intro z member
      rcases List.mem_cons.mp member with rfl | member
      · exact all _ (List.mem_cons_self ..)
      · exact ih later z member
    · intro z member
      rcases List.mem_cons.mp member with rfl | member
      · exact keeps x _ here (all x (List.mem_cons_self ..))
      · exact later z member

section Iterate

@[simp] theorem length_iterate (n : Nat) (xs : List α) :
    ((List.replaceF f)^[n] xs).length = xs.length := by
  induction n generalizing xs with
  | zero => rfl
  | succ n ih => rw [Function.iterate_succ_apply, ih, List.length_replaceF]

theorem forall_iterate {P : α → Prop} (keeps : ∀ x y, f x = some y → P x → P y) (n : Nat)
    {xs : List α} (all : ∀ x ∈ xs, P x) : ∀ x ∈ (List.replaceF f)^[n] xs, P x := by
  induction n generalizing xs with
  | zero => exact all
  | succ n ih =>
    rw [Function.iterate_succ_apply]
    exact ih (forall_replaceF keeps all)

/-- In a list of two parts, some of the replacements are in the first. -/
theorem iterate_append (n : Nat) (xs ys : List α) :
    ∃ a b, (List.replaceF f)^[n] (xs ++ ys) =
      (List.replaceF f)^[a] xs ++ (List.replaceF f)^[b] ys := by
  induction n generalizing xs ys with
  | zero => exact ⟨0, 0, rfl⟩
  | succ n ih =>
    rw [Function.iterate_succ_apply]
    by_cases some : ∃ x ∈ xs, (f x).isSome
    · rw [replaceF_append_of_some some]
      obtain ⟨a, b, parts⟩ := ih (xs.replaceF f) ys
      exact ⟨a + 1, b, parts⟩
    · have none : ∀ x ∈ xs, f x = none := fun x member =>
        Option.not_isSome_iff_eq_none.mp fun found => some ⟨x, member, found⟩
      rw [replaceF_append_of_none none]
      obtain ⟨a, b, parts⟩ := ih xs (ys.replaceF f)
      exact ⟨a, b + 1, parts⟩

end Iterate

section Once

variable (once : ∀ x y, f x = some y → f y = none)

include once

/-- What is replaced as often as it matches. -/
theorem getD_eq_none (x : α) : f ((f x).getD x) = none := by
  rcases here : f x with _ | y
  · exact here
  · exact once x y here

theorem count_replaceF (xs : List α) : count f (xs.replaceF f) = count f xs - 1 := by
  induction xs with
  | nil => rfl
  | cons x xs ih =>
    rw [List.replaceF_cons]
    unfold count at ih ⊢
    rcases here : f x with _ | y
    · simp [here, ih]
    · simp [here, once x y here]

theorem count_iterate (n : Nat) (xs : List α) :
    count f ((List.replaceF f)^[n] xs) = count f xs - n := by
  induction n generalizing xs with
  | zero => rfl
  | succ n ih =>
    rw [Function.iterate_succ_apply, ih, count_replaceF once]
    omega

/-- After as many replacements as there are matches, each match is replaced. -/
theorem iterate_replaceF (xs ys : List α) :
    (List.replaceF f)^[count f xs] (xs ++ ys) = xs.map (fun x => (f x).getD x) ++ ys := by
  have past : ∀ x, f x = none → ∀ n zs,
      (List.replaceF f)^[n] (x :: zs) = x :: (List.replaceF f)^[n] zs := by
    intro x none n
    induction n with
    | zero => exact fun _ => rfl
    | succ n ih =>
      intro zs
      rw [Function.iterate_succ_apply, Function.iterate_succ_apply,
        List.replaceF_cons_of_none f none, ih]
  induction xs with
  | nil => rfl
  | cons x xs ih =>
    rcases here : f x with _ | y
    · have same : count f (x :: xs) = count f xs := by simp [count, here]
      rw [same, List.cons_append, past x here, ih]
      simp [here]
    · have more : count f (x :: xs) = count f xs + 1 := by simp [count, here]
      rw [more, List.cons_append, Function.iterate_succ_apply,
        List.replaceF_cons_of_some f here, past y (once x y here), ih]
      simp [here]

end Once

end Lib.FirstMatch
