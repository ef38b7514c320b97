import Mathlib.Logic.Function.Basic

/-!
# Replacement policies

`utils/cache/replacement_policy.hpp` and `utils/cache/replacement_policies/`. The
matrices of the cache and of its policies are functions of the row and the way;
only the cells inside the allocated matrix are ever looked at.
-/
namespace Sinuca3.Source

structure CacheLine where
  tag : BitVec 64 := 0
  index : BitVec 64 := 0
  isValid : Bool := false
  i : Nat
  j : Nat

/-- One cell of a matrix replaced. -/
def setCell {α : Type} (m : Nat → Nat → α) (i j : Nat) (x : α) : Nat → Nat → α :=
  Function.update m i (Function.update (m i) j x)

section SetCell

variable {α : Type} (m : Nat → Nat → α) (i j : Nat) (x : α)

@[simp] theorem setCell_same : setCell m i j x i j = x := by simp [setCell]

theorem setCell_other_row (i' j' : Nat) (different : i' ≠ i) :
    setCell m i j x i' j' = m i' j' := by
  unfold setCell
  rw [Function.update_of_ne different]

theorem setCell_other_way (j' : Nat) (different : j' ≠ j) :
    setCell m i j x i j' = m i j' := by
  unfold setCell
  rw [Function.update_self, Function.update_of_ne different]

theorem setCell_other (i' j' : Nat) (different : ¬ (i' = i ∧ j' = j)) :
    setCell m i j x i' j' = m i' j' := by
  by_cases row : i' = i
  · subst row
    exact setCell_other_way m i' j x j' fun way => different ⟨rfl, way⟩
  · exact setCell_other_row m i j x i' j' row

end SetCell

/-- The state each policy keeps; for `random`, what `rand` will return. -/
inductive ReplacementPolicies where
  | lru (wayUsageCounters : Nat → Nat → BitVec 32)
  | random (rand : Nat → Nat)
  | roundRobin (rrIndex : Nat → Nat)

structure ReplacementPolicy where
  numSets : Nat
  numWays : Nat
  policy : ReplacementPolicies

namespace ReplacementPolicy

def lru (numSets numWays : Nat) : ReplacementPolicy := ⟨numSets, numWays, .lru fun _ _ => 0⟩

/-- `srand` is given a fixed seed, but the whole process draws from one sequence. -/
def random (numSets numWays : Nat) (rand : Nat → Nat) : ReplacementPolicy :=
  ⟨numSets, numWays, .random rand⟩

def roundRobin (numSets numWays : Nat) : ReplacementPolicy :=
  ⟨numSets, numWays, .roundRobin fun _ => 0⟩

def acess (p : ReplacementPolicy) (entry : CacheLine) : ReplacementPolicy :=
  match p.policy with
  | .lru counters =>
    let counters := fun i way =>
      if i = entry.i ∧ way < p.numWays then counters i way + 1 else counters i way
    { p with policy := .lru (setCell counters entry.i entry.j 0) }
  | .random _ => p
  | .roundRobin _ => p

/-- One iteration of the loop of LRU's `SelectVictim`, on the greatest counter so
far and its way. -/
def lruStep (counters : Nat → BitVec 32) (best : Int × Nat) (way : Nat) : Int × Nat :=
  let count : Int := (counters way).toNat
  if count > best.1 then (count, way) else best

/-- The loop starts below every counter. -/
def lruVictim (counters : Nat → BitVec 32) (numWays : Nat) : Nat :=
  ((List.range numWays).foldl (lruStep counters) (-1, 0)).2

/-- The set and the way chosen, and the policy afterwards. -/
def selectVictim (p : ReplacementPolicy) (_tag index : BitVec 64) :
    (Nat × Nat) × ReplacementPolicy :=
  match p.policy with
  | .lru counters =>
    ((index.toNat, lruVictim (counters index.toNat) p.numWays), p)
  | .random rand =>
    ((index.toNat, rand 0 % p.numWays), { p with policy := .random fun n => rand (n + 1) })
  | .roundRobin rrIndex =>
    let rr := rrIndex index.toNat
    let rrIndex := Function.update rrIndex index.toNat ((rr + 1) % p.numWays)
    ((index.toNat, rr), { p with policy := .roundRobin rrIndex })

/-- A round-robin pointer always points to a way. -/
def InRange (p : ReplacementPolicy) : Prop :=
  ∀ rrIndex, p.policy = .roundRobin rrIndex → ∀ set, rrIndex set < p.numWays

theorem lru_inRange (numSets numWays : Nat) : (lru numSets numWays).InRange := by
  intro rrIndex same
  cases same

theorem random_inRange (numSets numWays : Nat) (rand : Nat → Nat) :
    (random numSets numWays rand).InRange := by
  intro rrIndex same
  cases same

theorem roundRobin_inRange (numSets numWays : Nat) (some : 0 < numWays) :
    (roundRobin numSets numWays).InRange := by
  intro rrIndex same set
  cases same
  exact some

@[simp] theorem acess_numWays (p : ReplacementPolicy) (entry : CacheLine) :
    (p.acess entry).numWays = p.numWays := by
  unfold acess
  split <;> rfl

@[simp] theorem selectVictim_numWays (p : ReplacementPolicy) (tag index : BitVec 64) :
    (p.selectVictim tag index).2.numWays = p.numWays := by
  unfold selectVictim
  split <;> rfl

@[simp] theorem selectVictim_set (p : ReplacementPolicy) (tag index : BitVec 64) :
    (p.selectVictim tag index).1.1 = index.toNat := by
  unfold selectVictim
  split <;> rfl

theorem acess_inRange {p : ReplacementPolicy} (before : p.InRange) (entry : CacheLine) :
    (p.acess entry).InRange := by
  intro rrIndex same
  unfold acess at same ⊢
  split at same
  · cases same
  · exact before rrIndex same
  · exact before rrIndex same

theorem selectVictim_inRange {p : ReplacementPolicy} (before : p.InRange) (some : 0 < p.numWays)
    (tag index : BitVec 64) : (p.selectVictim tag index).2.InRange := by
  intro rrIndex same set
  unfold selectVictim at same ⊢
  split at same
  · exact before rrIndex same set
  · cases same
  · rename_i rrIndex' kind
    cases same
    by_cases here : set = index.toNat
    · subst here
      rw [Function.update_self]
      exact Nat.mod_lt _ some
    · rw [Function.update_of_ne here]
      exact before rrIndex' kind set

theorem lruVictim_lt (counters : Nat → BitVec 32) (numWays : Nat) (some : 0 < numWays) :
    lruVictim counters numWays < numWays := by
  have go : ∀ (ways : List Nat) (best : Int × Nat), best.2 < numWays →
      (∀ way ∈ ways, way < numWays) → (ways.foldl (lruStep counters) best).2 < numWays := by
    intro ways
    induction ways with
    | nil => exact fun best inside _ => inside
    | cons way ways ih =>
      intro best inside all
      rw [List.foldl_cons]
      apply ih
      · unfold lruStep
        dsimp only
        split
        · exact all way (List.mem_cons_self ..)
        · exact inside
      · exact fun way' member => all way' (List.mem_cons_of_mem way member)
  exact go _ (-1, 0) some fun way member => List.mem_range.mp member

/-- No way has a greater counter than the one LRU chooses. -/
theorem le_lruVictim (counters : Nat → BitVec 32) (numWays : Nat) {way : Nat}
    (inside : way < numWays) :
    (counters way).toNat ≤ (counters (lruVictim counters numWays)).toNat := by
  have go : ∀ (ways : List Nat) (best : Int × Nat),
      (best.1 = -1 ∨ best.1 = (counters best.2).toNat) →
      best.1 ≤ (ways.foldl (lruStep counters) best).1 ∧
      (∀ way ∈ ways, ((counters way).toNat : Int) ≤ (ways.foldl (lruStep counters) best).1) ∧
      ((ways.foldl (lruStep counters) best).1 = -1 ∨
        (ways.foldl (lruStep counters) best).1 =
          (counters (ways.foldl (lruStep counters) best).2).toNat) := by
    intro ways
    induction ways with
    | nil => exact fun best start => ⟨Int.le_refl _, fun _ none => (by cases none), start⟩
    | cons way ways ih =>
      intro best start
      rw [List.foldl_cons]
      have step : best.1 ≤ (lruStep counters best way).1 ∧
          ((counters way).toNat : Int) ≤ (lruStep counters best way).1 ∧
          ((lruStep counters best way).1 = -1 ∨ (lruStep counters best way).1 =
            (counters (lruStep counters best way).2).toNat) := by
        unfold lruStep
        dsimp only
        split
        · exact ⟨by omega, Int.le_refl _, .inr rfl⟩
        · exact ⟨Int.le_refl _, by omega, start⟩
      obtain ⟨above, all, ends⟩ := ih _ step.2.2
      refine ⟨Int.le_trans step.1 above, fun way' member => ?_, ends⟩
      rcases List.mem_cons.mp member with rfl | member
      · exact Int.le_trans step.2.1 above
      · exact all way' member
  obtain ⟨_, all, ends⟩ := go (List.range numWays) (-1, 0) (.inl rfl)
  have here := all way (List.mem_range.mpr inside)
  unfold lruVictim
  rcases ends with none | greatest
  · omega
  · omega

/-- What an access does to the counters of LRU. -/
theorem acess_lru {p : ReplacementPolicy} {counters : Nat → Nat → BitVec 32}
    (kind : p.policy = .lru counters) (entry : CacheLine) :
    ∃ counters', (p.acess entry).policy = .lru counters' ∧
      ∀ set, ∀ way < p.numWays, counters' set way =
        if set = entry.i then if way = entry.j then 0 else counters set way + 1
        else counters set way := by
  refine ⟨_, by unfold acess; rw [kind], fun set way inside => ?_⟩
  by_cases row : set = entry.i
  · subst row
    rw [if_pos rfl]
    by_cases here : way = entry.j
    · subst here
      rw [setCell_same, if_pos rfl]
    · rw [setCell_other_way _ _ _ _ _ here, if_neg here, if_pos ⟨rfl, inside⟩]
  · rw [setCell_other_row _ _ _ _ _ _ row, if_neg row, if_neg fun both => row both.1]

/-- Every policy chooses a way of the cache. -/
theorem selectVictim_way_lt {p : ReplacementPolicy} (inRange : p.InRange) (some : 0 < p.numWays)
    (tag index : BitVec 64) : (p.selectVictim tag index).1.2 < p.numWays := by
  unfold selectVictim
  split
  · exact lruVictim_lt _ _ some
  · exact Nat.mod_lt _ some
  · rename_i rrIndex kind
    exact inRange rrIndex kind _

end ReplacementPolicy

end Sinuca3.Source
