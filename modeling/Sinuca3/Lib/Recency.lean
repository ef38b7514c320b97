import Mathlib.Data.List.Induction

/-!
# Recency

How long ago an element was last in a list that grows at its end, counted in the
elements that came after it. Elements that occur are told apart by it, and the one it is
greatest for is the least recent.
-/
namespace Lib.Recency

variable {α : Type} [DecidableEq α]

/-- The elements after the last `x`; all of them, where there is none. -/
def since (x : α) (l : List α) : Nat := (l.reverse.takeWhile (· ≠ x)).length

@[simp] theorem since_nil (x : α) : since x [] = 0 := rfl

theorem since_concat (x y : α) (l : List α) :
    since x (l ++ [y]) = if y = x then 0 else since x l + 1 := by
  unfold since
  rw [List.reverse_append, List.reverse_singleton, List.singleton_append, List.takeWhile_cons]
  by_cases same : y = x <;> simp [same]

/-- What is so far from the end of a list is the element itself. -/
theorem getElem?_since {x : α} {l : List α} (member : x ∈ l) :
    l.reverse[since x l]? = some x := by
  induction l using List.reverseRecOn with
  | nil => cases member
  | append_singleton l y ih =>
    rw [since_concat, List.reverse_append, List.reverse_singleton, List.singleton_append]
    by_cases same : y = x
    · simp [same]
    · have older : x ∈ l := by simpa [Ne.symm same] using member
      rw [if_neg same, List.getElem?_cons_succ]
      exact ih older

theorem since_injective {x y : α} {l : List α} (member : x ∈ l) (member' : y ∈ l)
    (same : since x l = since y l) : x = y := by
  have place := getElem?_since member
  rw [same, getElem?_since member'] at place
  exact (Option.some.inj place).symm

/-- Of the first so many numbers, the one that was in the list longest ago. -/
def LeastRecent (n : Nat) (l : List Nat) (x : Nat) : Prop :=
  x < n ∧ ∀ y < n, y ≠ x → since y l < since x l

instance (n : Nat) (l : List Nat) (x : Nat) : Decidable (LeastRecent n l x) :=
  inferInstanceAs (Decidable (_ ∧ ∀ y < n, _ → _))

theorem LeastRecent.unique {n : Nat} {l : List Nat} {x y : Nat} (least : LeastRecent n l x)
    (least' : LeastRecent n l y) : y = x := by
  by_contra different
  have one := least.2 y least'.1 different
  have other := least'.2 x least.1 (Ne.symm different)
  omega

/-- Where all occur, one that none is less recent than. -/
theorem leastRecent_of_max {n : Nat} {l : List Nat} {x : Nat} (inside : x < n)
    (occur : ∀ y < n, y ∈ l) (max : ∀ y < n, since y l ≤ since x l) : LeastRecent n l x := by
  refine ⟨inside, fun y within different => ?_⟩
  apply Nat.lt_of_le_of_ne (max y within)
  intro same
  exact different (since_injective (occur y within) (occur x inside) same)

/-- Numbers below `n` in turn, `k` of them. -/
def inTurn (n k : Nat) : List Nat := (List.range k).map (· % n)

@[simp] theorem length_inTurn (n k : Nat) : (inTurn n k).length = k := by simp [inTurn]

theorem inTurn_succ (n k : Nat) : inTurn n (k + 1) = inTurn n k ++ [k % n] := by
  simp [inTurn, List.range_succ]

theorem mem_inTurn {n k x : Nat} (inside : x < n) : x ∈ inTurn n k ↔ x < k := by
  unfold inTurn
  rw [List.mem_map]
  constructor
  · rintro ⟨i, member, rfl⟩
    exact Nat.lt_of_le_of_lt (Nat.mod_le i n) (List.mem_range.mp member)
  · intro early
    exact ⟨x, List.mem_range.mpr early, Nat.mod_eq_of_lt inside⟩

theorem since_inTurn {n k x : Nat} (inside : x < n) (early : x < k) :
    since x (inTurn n k) = (k - 1 - x) % n := by
  induction k with
  | zero => omega
  | succ k ih =>
    rw [inTurn_succ, since_concat]
    by_cases last : k % n = x
    · rw [if_pos last, show k + 1 - 1 - x = k - k % n by omega]
      exact (Nat.sub_mod_eq_zero_of_mod_eq (Nat.mod_mod k n).symm).symm
    · rw [if_neg last]
      have before : x < k := by
        rcases Nat.lt_or_ge x k with before | after
        · exact before
        · have same : x = k := by omega
          subst same
          exact absurd (Nat.mod_eq_of_lt inside) last
      rw [ih before]
      have whole := Nat.div_add_mod (k - 1 - x) n
      have small := Nat.mod_lt (k - 1 - x) (Nat.lt_of_le_of_lt (Nat.zero_le x) inside)
      rcases Nat.lt_or_ge ((k - 1 - x) % n + 1) n with room | none
      · rw [show k + 1 - 1 - x = (k - 1 - x) % n + 1 + n * ((k - 1 - x) / n) by omega,
          Nat.add_mul_mod_self_left, Nat.mod_eq_of_lt room]
      · exfalso
        apply last
        have turn : n * ((k - 1 - x) / n + 1) = n * ((k - 1 - x) / n) + n := Nat.mul_succ n _
        rw [show k = x + n * ((k - 1 - x) / n + 1) by omega, Nat.add_mul_mod_self_left,
          Nat.mod_eq_of_lt inside]

/-- Once all have had a turn, the next is the one whose last turn was longest ago. -/
theorem leastRecent_inTurn {n k : Nat} (some : 0 < n) (all : n ≤ k) :
    LeastRecent n (inTurn n k) (k % n) := by
  have inside := Nat.mod_lt k some
  apply leastRecent_of_max inside
  · exact fun y within => (mem_inTurn within).mpr (by omega)
  · intro y within
    rw [since_inTurn within (by omega), since_inTurn inside (by omega)]
    have whole := Nat.div_add_mod k n
    have turns : 0 < k / n := Nat.div_pos all some
    have turn : n * (k / n) = n * (k / n - 1) + n := by
      rw [← Nat.mul_succ, Nat.succ_eq_add_one, Nat.sub_add_cancel turns]
    have greatest : (k - 1 - k % n) % n = n - 1 := by
      rw [show k - 1 - k % n = n - 1 + n * (k / n - 1) by omega, Nat.add_mul_mod_self_left,
        Nat.mod_eq_of_lt (by omega)]
    have small := Nat.mod_lt (k - 1 - y) some
    omega

end Lib.Recency
