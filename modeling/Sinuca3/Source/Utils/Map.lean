import Mathlib.Data.List.Range
import Sinuca3.Lib.Multimap

/-!
# Map

`utils/map.hpp` and `map::Hash` of `utils/map.cpp`. A table of chains that only grow,
with an iterator of its own. It is the log of its insertions: `Get` is the first entry
of the key there, and `Next` goes through the log arranged by hash.
-/
namespace Sinuca3.Source
open Lib

/-- The octets of a `char*` before its terminator. -/
abbrev CString := List (BitVec 8)

namespace Map

def hashP : BitVec 32 := 71
def hashM : Nat := 4096

/-- One turn of the loop: the sum and the power. -/
def hashOctet (state : BitVec 32 × BitVec 32) (octet : BitVec 8) : BitVec 32 × BitVec 32 :=
  (state.1 + octet.setWidth 32 * state.2, state.2 * hashP)

def hash : CString → Nat
  | [] => 0
  | first :: rest => (rest.foldl hashOctet (first.setWidth 32, hashP)).1.toNat % hashM

theorem hash_lt (key : CString) : hash key < hashM := by
  cases key with
  | nil => exact Nat.zero_lt_succ _
  | cons first rest => exact Nat.mod_lt _ (Nat.zero_lt_succ _)

end Map

/-- A pointer to a node is its place in the chain of the row `iteratorIdx`. -/
structure Map (α : Type) where
  table : Nat → List (CString × α) := fun _ => []
  iteratorPtr : Option Nat := none
  iteratorIdx : Nat := 0

namespace Map

variable {α : Type}

def insert (m : Map α) (key : CString) (value : α) : Map α :=
  { m with table := fun i => if i = hash key then m.table i ++ [(key, value)] else m.table i }

def get (m : Map α) (key : CString) : Option α := (m.table (hash key)).lookup key

def resetIterator (m : Map α) : Map α := { m with iteratorPtr := none, iteratorIdx := 0 }

/-- The loop of `Next`, with as many rows left. -/
def seek (m : Map α) : Nat → Option (CString × α) × Map α
  | 0 => (none, m.resetIterator)
  | rows + 1 =>
    match m.table m.iteratorIdx with
    | node :: _ => (some node, { m with iteratorPtr := some 0 })
    | [] => seek { m with iteratorIdx := m.iteratorIdx + 1 } rows

def next (m : Map α) : Option (CString × α) × Map α :=
  match m.iteratorPtr with
  | none => m.seek (hashM - m.iteratorIdx)
  | some node =>
    match (m.table m.iteratorIdx)[node + 1]? with
    | some entry => (some entry, { m with iteratorPtr := some (node + 1) })
    | none =>
      let m := { m with iteratorIdx := m.iteratorIdx + 1 }
      if hashM ≤ m.iteratorIdx then (none, m.resetIterator)
      else m.seek (hashM - m.iteratorIdx)

/-- The rows from `i` on. -/
def rowsFrom (m : Map α) (i : Nat) : List (CString × α) :=
  (List.range' i (hashM - i)).flatMap m.table

theorem rowsFrom_of_lt (m : Map α) {i : Nat} (inside : i < hashM) :
    m.rowsFrom i = m.table i ++ m.rowsFrom (i + 1) := by
  have rows : hashM - i = hashM - (i + 1) + 1 := by omega
  rw [rowsFrom, rows, List.range'_succ, List.flatMap_cons]
  rfl

theorem rowsFrom_of_ge (m : Map α) {i : Nat} (outside : hashM ≤ i) : m.rowsFrom i = [] := by
  rw [rowsFrom, Nat.sub_eq_zero_of_le outside]
  rfl

/-- What `Next` has still to return. -/
def unvisited (m : Map α) : List (CString × α) :=
  match m.iteratorPtr with
  | none => m.rowsFrom m.iteratorIdx
  | some node => (m.table m.iteratorIdx).drop (node + 1) ++ m.rowsFrom (m.iteratorIdx + 1)

/-- All that a loop over the map visits, in order. -/
def entries (m : Map α) : List (CString × α) := m.resetIterator.unvisited

/-- Returns the first of `left` and leaves the others; at the end it starts over. -/
def Visits (table : Nat → List (CString × α)) :
    List (CString × α) → Option (CString × α) × Map α → Prop
  | [], r => r = (none, { table })
  | entry :: rest, r => r.1 = some entry ∧ r.2.table = table ∧ r.2.unvisited = rest

theorem seek_visits (rows : Nat) : ∀ m : Map α, hashM - m.iteratorIdx = rows →
    Visits m.table (m.rowsFrom m.iteratorIdx) (m.seek rows) := by
  induction rows with
  | zero =>
    intro m last
    rw [rowsFrom_of_ge m (by omega)]
    rfl
  | succ rows ih =>
    intro m last
    rw [rowsFrom_of_lt m (by omega), seek]
    cases row : m.table m.iteratorIdx with
    | nil => exact ih { m with iteratorIdx := m.iteratorIdx + 1 } (by dsimp only; omega)
    | cons node chain => exact ⟨rfl, rfl, by simp only [unvisited, row]; rfl⟩

theorem next_visits (m : Map α) : Visits m.table m.unvisited m.next := by
  cases pointer : m.iteratorPtr with
  | none =>
    simp only [unvisited, next, pointer]
    exact seek_visits _ m rfl
  | some node =>
    have chain := List.drop_eq_getElem?_toList_append (l := m.table m.iteratorIdx) (i := node + 1)
    simp only [unvisited, next, pointer, chain]
    cases found : (m.table m.iteratorIdx)[node + 1]? with
    | some entry => exact ⟨rfl, rfl, rfl⟩
    | none =>
      rw [List.drop_eq_nil_of_le (by rw [List.getElem?_eq_none_iff] at found; omega)]
      by_cases outside : hashM ≤ m.iteratorIdx + 1
      · simp only [rowsFrom_of_ge m outside, if_pos outside]
        rfl
      · simp only [if_neg outside]
        exact seek_visits _ { m with iteratorPtr := some node, iteratorIdx := m.iteratorIdx + 1 } rfl

/-- The results of `n` calls of `Next`. -/
def nexts : Nat → Map α → List (Option (CString × α))
  | 0, _ => []
  | n + 1, m => m.next.1 :: nexts n m.next.2

/-- The calls go through the entries and then return nothing, again and again. -/
theorem nexts_from (n : Nat) : ∀ (m : Map α) (k : Nat), k ≤ m.entries.length →
    m.unvisited = m.entries.drop k →
    nexts n m = (List.range n).map fun i => m.entries[(k + i) % (m.entries.length + 1)]? := by
  induction n with
  | zero => exact fun _ _ _ _ => rfl
  | succ n ih =>
    intro m k inside left
    have visits := next_visits m
    rw [nexts, List.range_succ_eq_map, List.map_cons, List.map_map, Nat.add_zero,
      Nat.mod_eq_of_lt (Nat.lt_succ_of_le inside)]
    rcases Nat.eq_or_lt_of_le inside with last | more
    · rw [left, last, List.drop_length] at visits
      have ended : m.next = (none, { table := m.table }) := visits
      have entries : ({ table := m.table } : Map α).entries = m.entries := rfl
      rw [ended, ih _ 0 (Nat.zero_le _) List.drop_zero.symm, entries, last,
        List.getElem?_eq_none (Nat.le_refl _)]
      refine congrArg (List.cons none) (List.map_congr_left fun i _ => ?_)
      rw [Function.comp, Nat.zero_add, Nat.succ_eq_one_add, ← Nat.add_assoc, Nat.add_mod_left]
    · rw [left, List.drop_eq_getElem_cons more] at visits
      obtain ⟨returned, table, others⟩ := visits
      have entries : m.next.2.entries = m.entries := by
        unfold Map.entries unvisited rowsFrom resetIterator
        rw [table]
      rw [ih _ (k + 1) (by rw [entries]; exact more) (by rw [entries]; exact others), returned,
        entries, List.getElem?_eq_getElem more]
      refine congrArg (List.cons _) (List.map_congr_left fun i _ => ?_)
      rw [Function.comp, Nat.add_right_comm k 1 i]
      rfl

/-- A loop over the map sees its entries, each once, and the next loop again. -/
theorem nexts_entries (m : Map α) (n : Nat) :
    nexts n m.resetIterator =
      (List.range n).map fun i => m.entries[i % (m.entries.length + 1)]? := by
  have passes := nexts_from n m.resetIterator 0 (Nat.zero_le _) List.drop_zero.symm
  simp only [Nat.zero_add] at passes
  exact passes

/-- The map holds what was inserted into it. -/
def Holds (m : Map α) (log : List (CString × α)) : Prop :=
  ∀ i, m.table i = log.filter fun e => hash e.1 = i

theorem holds_empty : ({} : Map α).Holds [] := fun _ => rfl

theorem Holds.insert {m : Map α} {log : List (CString × α)} (h : m.Holds log) (key : CString)
    (value : α) : (m.insert key value).Holds (log ++ [(key, value)]) := by
  intro i
  rw [List.filter_append, ← h i]
  by_cases here : i = hash key
  · simp [Map.insert, here]
  · simp [Map.insert, here, Ne.symm here]

theorem Holds.get {m : Map α} {log : List (CString × α)} (h : m.Holds log) (key : CString) :
    m.get key = log.lookup key := by
  rw [Map.get, h, lookup_filter_key fun k => hash k = hash key]
  simp

theorem Holds.entries {m : Map α} {log : List (CString × α)} (h : m.Holds log) :
    m.entries = arranged hash hashM log := by
  have rows : m.table = fun i => log.filter fun e => hash e.1 = i := funext h
  rw [Map.entries, unvisited, resetIterator, rowsFrom, arranged, List.range_eq_range']
  simp only [rows, Nat.sub_zero]

end Map
end Sinuca3.Source
