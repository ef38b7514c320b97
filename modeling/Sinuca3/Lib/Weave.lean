import Mathlib.Data.List.Basic

/-!
# Weaving a list into another

Some entries of a list are marked. `weave` gives them the entries of a second list, one
after the other, and the others a default. A list of pairs is the weave of its two parts, so
what is read in two streams can be put together as what was once one.
-/
namespace Lib

variable {α β : Type}

def weave (marked : α → Bool) (plain : β) : List α → List β → List (α × β)
  | [], _ => []
  | a :: as, bs =>
    if marked a then
      match bs with
      | [] => (a, plain) :: weave marked plain as []
      | b :: bs => (a, b) :: weave marked plain as bs
    else (a, plain) :: weave marked plain as bs

section

variable (marked : α → Bool) (plain : β)

@[simp] theorem weave_nil (bs : List β) : weave marked plain [] bs = [] := rfl

theorem weave_marked {a : α} (here : marked a = true) (as : List α) (b : β) (bs : List β) :
    weave marked plain (a :: as) (b :: bs) = (a, b) :: weave marked plain as bs :=
  if_pos here

theorem weave_plain {a : α} (here : marked a = false) (as : List α) (bs : List β) :
    weave marked plain (a :: as) bs = (a, plain) :: weave marked plain as bs :=
  if_neg (by simp [here])

theorem weave_missing {a : α} (here : marked a = true) (as : List α) :
    weave marked plain (a :: as) [] = (a, plain) :: weave marked plain as [] :=
  if_pos here

/-- A list whose plain entries have the default is the weave of its parts. -/
theorem weave_parts (pairs : List (α × β))
    (plains : ∀ pair ∈ pairs, marked pair.1 = false → pair.2 = plain) :
    weave marked plain (pairs.map Prod.fst)
      ((pairs.filter fun pair => marked pair.1).map Prod.snd) = pairs := by
  induction pairs with
  | nil => rfl
  | cons pair pairs ih =>
    have rest := ih fun other member => plains other (List.mem_cons_of_mem pair member)
    obtain ⟨a, b⟩ := pair
    cases here : marked a with
    | true =>
      rw [List.filter_cons_of_pos (by exact here), List.map_cons, List.map_cons,
        weave_marked marked plain here, rest]
    | false =>
      have default : b = plain := plains (a, b) (List.mem_cons_self ..) here
      rw [List.filter_cons_of_neg (by simp [here]), List.map_cons,
        weave_plain marked plain here, rest, default]

/-- Where the second list has an entry for each that is marked, weaving goes on behind it. -/
theorem weave_append (as as' : List α) (bs bs' : List β)
    (enough : (as.filter marked).length = bs.length) :
    weave marked plain (as ++ as') (bs ++ bs') =
      weave marked plain as bs ++ weave marked plain as' bs' := by
  induction as generalizing bs with
  | nil =>
    cases List.eq_nil_of_length_eq_zero enough.symm
    rfl
  | cons a as ih =>
    cases here : marked a with
    | true =>
      rw [List.filter_cons_of_pos here, List.length_cons] at enough
      obtain ⟨b, bs, rfl⟩ := List.exists_cons_of_length_pos (by omega : 0 < bs.length)
      rw [List.cons_append, List.cons_append, weave_marked marked plain here,
        weave_marked marked plain here, ih bs (by simpa using enough), List.cons_append]
    | false =>
      rw [List.filter_cons_of_neg (by simp [here])] at enough
      rw [List.cons_append, weave_plain marked plain here, weave_plain marked plain here,
        ih bs enough, List.cons_append]

theorem length_weave (as : List α) (bs : List β) :
    (weave marked plain as bs).length = as.length := by
  induction as generalizing bs with
  | nil => rfl
  | cons a as ih =>
    cases here : marked a with
    | true =>
      cases bs with
      | nil => rw [weave_missing marked plain here, List.length_cons, ih, List.length_cons]
      | cons b bs => rw [weave_marked marked plain here, List.length_cons, ih, List.length_cons]
    | false => rw [weave_plain marked plain here, List.length_cons, ih, List.length_cons]

end

/-- Weaving what is seen of two lists is what is seen of their weave. -/
theorem weave_map {γ δ : Type} (marked : α → Bool) (plain : β) (marked' : γ → Bool)
    (f : α → γ) (g : β → δ) (as : List α) (bs : List β)
    (same : ∀ a ∈ as, marked' (f a) = marked a) :
    weave marked' (g plain) (as.map f) (bs.map g) =
      (weave marked plain as bs).map (Prod.map f g) := by
  induction as generalizing bs with
  | nil => rfl
  | cons a as ih =>
    have rest := fun bs => ih bs fun other member => same other (List.mem_cons_of_mem a member)
    have first := same a (List.mem_cons_self ..)
    cases here : marked a with
    | true =>
      rw [here] at first
      cases bs with
      | nil =>
        rw [List.map_cons, List.map_nil, weave_missing _ _ first, weave_missing _ _ here,
          List.map_cons, ← rest]
        rfl
      | cons b bs =>
        rw [List.map_cons, List.map_cons, weave_marked _ _ first, weave_marked _ _ here,
          List.map_cons, rest]
        rfl
    | false =>
      rw [here] at first
      rw [List.map_cons, weave_plain _ _ first, weave_plain _ _ here, List.map_cons, rest]
      rfl

end Lib
