import Sinuca3.Lib.Machine
import Sinuca3.Source.Utils.Map

/-!
# The map is a multimap written once

The answers of `utils/map.hpp` over every sequence of its operations. An insertion never
changes an entry: `Get` finds the first of its key, and a loop of `Next` goes through all
of them row by row.
-/
namespace Sinuca3.Guarantees
open Sinuca3.Source Lib

variable {α : Type}

inductive MapOp (α : Type) where
  | insert (key : CString) (value : α)
  | get (key : CString)
  | resetIterator
  | next

/-- An operation, and what it inserts. -/
def mapStep (m : Map α) : MapOp α → Map α × List (CString × α)
  | .insert key value => (m.insert key value, [(key, value)])
  | .get _ => (m, [])
  | .resetIterator => (m.resetIterator, [])
  | .next => (m.next.2, [])

theorem holds_congr {m m' : Map α} (table : m'.table = m.table) {log : List (CString × α)}
    (holds : m.Holds log) : m'.Holds log := fun i => (congrFun table i).trans (holds i)

theorem next_table (m : Map α) : m.next.2.table = m.table := by
  have visits := Map.next_visits m
  cases left : m.unvisited with
  | nil =>
    rw [left] at visits
    exact congrArg (fun r => r.2.table) visits
  | cons entry rest =>
    rw [left] at visits
    exact visits.2.1

theorem mapStep_holds {m : Map α} {log : List (CString × α)} (holds : m.Holds log)
    (op : MapOp α) : (mapStep m op).1.Holds (log ++ (mapStep m op).2) := by
  cases op with
  | insert key value => exact holds.insert key value
  | get key =>
    rw [mapStep, List.append_nil]
    exact holds
  | resetIterator =>
    rw [mapStep, List.append_nil]
    exact holds_congr rfl holds
  | next =>
    rw [mapStep, List.append_nil]
    exact holds_congr (next_table m) holds

theorem run_holds (ops : List (MapOp α)) :
    (Machine.run mapStep {} ops).1.Holds (Machine.run mapStep {} ops).2 :=
  Machine.run_induction mapStep (P := fun m _ inserted => m.Holds inserted) Map.holds_empty
    (fun _ _ _ op holds => mapStep_holds holds op) ops

/-- For every sequence of operations, with `inserted` for its insertions in order: `Get`
returns the first value of a key, and from `ResetIterator` on the calls of `Next` go round
and round through the insertions in some order, each once and those of one key as they came,
and nothing after the last. -/
theorem map_is_write_once_multimap (ops : List (MapOp α)) :
    let m := (Machine.run mapStep {} ops).1
    let inserted := (Machine.run mapStep {} ops).2
    (∀ key, m.get key = inserted.lookup key) ∧
    ∃ order : List (CString × α), order.Perm inserted ∧
      (∀ key, order.filter (fun e => e.1 = key) = inserted.filter fun e => e.1 = key) ∧
      ∀ n, m.resetIterator.nexts n =
        (List.range n).map fun i => order[i % (order.length + 1)]? := by
  intro m inserted
  have holds : m.Holds inserted := run_holds ops
  refine ⟨holds.get, m.entries, ?_, fun key => ?_, m.nexts_entries⟩
  · rw [holds.entries]
    exact arranged_perm Map.hash_lt inserted
  · rw [holds.entries, filter_key_arranged, if_pos (Map.hash_lt key)]

end Sinuca3.Guarantees
