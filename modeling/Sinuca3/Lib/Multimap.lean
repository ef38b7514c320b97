import Mathlib.Data.List.Basic
import Mathlib.Data.List.Perm.Basic
import Mathlib.Data.List.Range

/-!
# Multimaps as logs

The entries in the order they were inserted. The first one of a key is its value.
A table keeps them in rows: `arranged` is the log row by row, which leaves the entries
of one key in their order.
-/
namespace Lib

variable {κ α : Type}

section Lookup

variable [BEq κ]

theorem lookup_filter_key [LawfulBEq κ] (q : κ → Bool) (key : κ) (log : List (κ × α)) :
    (log.filter fun e => q e.1).lookup key = if q key then log.lookup key else none := by
  induction log with
  | nil => simp
  | cons e log ih =>
    obtain ⟨k, value⟩ := e
    by_cases same : key = k
    · subst same
      cases kept : q key with
      | false => simpa [List.filter_cons, kept] using ih
      | true => simp [kept]
    · have other : (key == k) = false := by simpa using same
      cases kept : q k with
      | false => simpa [List.filter_cons, kept, List.lookup_cons, other] using ih
      | true => simpa [List.filter_cons, kept, List.lookup_cons, other] using ih

theorem mem_of_lookup [LawfulBEq κ] {key : κ} {value : α} {log : List (κ × α)}
    (h : log.lookup key = some value) : (key, value) ∈ log := by
  obtain ⟨before, after, rfl, _⟩ := List.lookup_eq_some_iff.mp h
  simp

end Lookup

variable (place : κ → Nat)

/-- The first `n` rows. -/
def arranged (n : Nat) (log : List (κ × α)) : List (κ × α) :=
  (List.range n).flatMap fun i => log.filter fun e => place e.1 = i

theorem arranged_succ (n : Nat) (log : List (κ × α)) :
    arranged place (n + 1) log = arranged place n log ++ log.filter fun e => place e.1 = n := by
  simp [arranged, List.range_succ]

theorem arranged_perm_filter (n : Nat) (log : List (κ × α)) :
    (arranged place n log).Perm (log.filter fun e => place e.1 < n) := by
  induction n with
  | zero => simp [arranged]
  | succ n ih =>
    have lower : log.filter (fun e => place e.1 < n) =
        (log.filter fun e => place e.1 < n + 1).filter fun e => place e.1 < n := by
      rw [List.filter_filter]
      refine List.filter_congr fun e _ => ?_
      rw [Bool.eq_iff_iff]
      simp only [decide_eq_true_eq, Bool.and_eq_true]
      omega
    have last : log.filter (fun e => place e.1 = n) =
        (log.filter fun e => place e.1 < n + 1).filter fun e => !decide (place e.1 < n) := by
      rw [List.filter_filter]
      refine List.filter_congr fun e _ => ?_
      rw [Bool.eq_iff_iff]
      simp only [decide_eq_true_eq, Bool.and_eq_true, Bool.not_eq_true', decide_eq_false_iff_not]
      omega
    rw [arranged_succ, last]
    refine (ih.append_right _).trans ?_
    rw [lower]
    exact List.filter_append_perm _ _

/-- The entries of one key are in one row, in their order. -/
theorem filter_key_arranged [DecidableEq κ] (key : κ) (n : Nat) (log : List (κ × α)) :
    (arranged place n log).filter (fun e => e.1 = key) =
      if place key < n then log.filter fun e => e.1 = key else [] := by
  induction n with
  | zero => simp [arranged]
  | succ n ih =>
    rw [arranged_succ, List.filter_append, ih, List.filter_filter]
    rcases Nat.lt_trichotomy (place key) n with below | here | above
    · have none : log.filter (fun e => decide (e.1 = key) && decide (place e.1 = n)) = [] := by
        refine List.filter_eq_nil_iff.mpr fun e _ => ?_
        grind
      simp [none, below, Nat.lt_succ_of_lt below]
    · have all : log.filter (fun e => decide (e.1 = key) && decide (place e.1 = n)) =
          log.filter fun e => e.1 = key := by
        refine List.filter_congr fun e _ => ?_
        grind
      simp [all, here]
    · have none : log.filter (fun e => decide (e.1 = key) && decide (place e.1 = n)) = [] := by
        refine List.filter_eq_nil_iff.mpr fun e _ => ?_
        grind
      simp [none, Nat.not_lt_of_gt above, Nat.not_lt_of_le above]

/-- Entries of one row stay as they are. -/
theorem arranged_row {i : Nat} {log : List (κ × α)} (row : ∀ e ∈ log, place e.1 = i) (n : Nat) :
    arranged place n log = if i < n then log else [] := by
  induction n with
  | zero => simp [arranged]
  | succ n ih =>
    rw [arranged_succ, ih]
    by_cases here : i = n
    · have all : log.filter (fun e => place e.1 = n) = log :=
        List.filter_eq_self.mpr fun e member => decide_eq_true ((row e member).trans here)
      simp [all, here]
    · have none : log.filter (fun e => place e.1 = n) = [] :=
        List.filter_eq_nil_iff.mpr fun e member same =>
          here ((row e member).symm.trans (of_decide_eq_true same))
      rw [none, List.append_nil]
      exact if_congr (by omega) rfl rfl

/-- What is placed in lower rows comes first. -/
theorem arranged_append {log log' : List (κ × α)}
    (before : ∀ e ∈ log, ∀ e' ∈ log', place e.1 < place e'.1) (n : Nat) :
    arranged place n (log ++ log') = arranged place n log ++ arranged place n log' := by
  induction n with
  | zero => simp [arranged]
  | succ n ih =>
    simp only [arranged_succ, ih, List.filter_append, List.append_assoc]
    congr 1
    by_cases here : log.filter (fun e => place e.1 = n) = []
    · rw [here, List.nil_append, List.nil_append]
    · obtain ⟨e, kept⟩ := List.exists_mem_of_ne_nil _ here
      obtain ⟨member, row⟩ := List.mem_filter.mp kept
      have none : arranged place n log' = [] := by
        refine List.eq_nil_iff_forall_not_mem.mpr fun e' member' => ?_
        obtain ⟨i, lower, kept'⟩ := List.mem_flatMap.mp member'
        obtain ⟨inLog', row'⟩ := List.mem_filter.mp kept'
        have later := before e member e' inLog'
        have lt := List.mem_range.mp lower
        rw [of_decide_eq_true row, of_decide_eq_true row'] at later
        omega
      rw [none, List.nil_append, List.nil_append]

variable {place} {n : Nat} (inside : ∀ key, place key < n)

include inside

theorem arranged_perm (log : List (κ × α)) : (arranged place n log).Perm log := by
  have all : log.filter (fun e => place e.1 < n) = log :=
    List.filter_eq_self.mpr fun e _ => decide_eq_true (inside e.1)
  exact (arranged_perm_filter place n log).trans (.of_eq all)

theorem lookup_arranged [BEq κ] [LawfulBEq κ] (key : κ) (log : List (κ × α)) :
    (arranged place n log).lookup key = log.lookup key := by
  have rows : ∀ m, (arranged place m log).lookup key =
      if place key < m then log.lookup key else none := by
    intro m
    induction m with
    | zero => simp [arranged]
    | succ m ih =>
      rw [arranged_succ, List.lookup_append, ih, lookup_filter_key (fun k => place k = m)]
      rcases Nat.lt_trichotomy (place key) m with below | here | above
      · simp [below, Nat.lt_succ_of_lt below, Nat.ne_of_lt below]
      · simp [here]
      · simp [Nat.not_lt_of_gt above, Nat.not_lt_of_le above, Nat.ne_of_gt above]
  rw [rows, if_pos (inside key)]

end Lib
