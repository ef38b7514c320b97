import Sinuca3.Source.Yaml.YamlEvents

/-!
# YAML trees and their events

The tree of a document, the events that libyaml delivers for it, and the value it is read
as. Where every key is a scalar the loops of the parser stop at their own end events, so
the value of the tree is what comes out and the stream is left behind the tree.
-/
namespace Sinuca3.Guarantees
open Lib Source

inductive YamlNode where
  | scalar (mark : YamlMark) (anchor : Option String) (text : String)
  | aliasOf (mark : YamlMark) (name : String)
  | sequence (mark : YamlMark) (anchor : Option String) (items : List YamlNode)
  | mapping (mark : YamlMark) (anchor : Option String) (entries : List (YamlNode × YamlNode))

namespace YamlNode

/-- The event a node begins with. -/
def first : YamlNode → YamlEvent
  | .scalar mark anchor text => .scalar mark anchor text
  | .aliasOf mark name => .aliasOf mark name
  | .sequence mark anchor _ => .sequenceStart mark anchor
  | .mapping mark anchor _ => .mappingStart mark anchor

mutual

/-- The events behind the first. -/
def behind : YamlNode → List YamlEvent
  | .scalar _ _ _ => []
  | .aliasOf _ _ => []
  | .sequence _ _ items => itemEvents items ++ [.sequenceEnd]
  | .mapping _ _ entries => entryEvents entries ++ [.mappingEnd]

def itemEvents : List YamlNode → List YamlEvent
  | [] => []
  | item :: items => item.first :: (behind item ++ itemEvents items)

def entryEvents : List (YamlNode × YamlNode) → List YamlEvent
  | [] => []
  | (key, value) :: entries =>
    key.first :: (behind key ++ value.first :: (behind value ++ entryEvents entries))

end

def events (node : YamlNode) : List YamlEvent := node.first :: node.behind

def isScalar : YamlNode → Bool
  | .scalar _ _ _ => true
  | _ => false

def isMapping : YamlNode → Bool
  | .mapping _ _ _ => true
  | _ => false

/-- The text of a key. -/
def keyText : YamlNode → String
  | .scalar _ _ text => text
  | _ => ""

/-- Every key is a scalar, and the size of every sequence fits in its type. -/
inductive Supported : YamlNode → Prop where
  | scalar (mark : YamlMark) (anchor : Option String) (text : String) :
      Supported (.scalar mark anchor text)
  | aliasOf (mark : YamlMark) (name : String) : Supported (.aliasOf mark name)
  | sequence (mark : YamlMark) (anchor : Option String) {items : List YamlNode}
      (few : items.length < 4294967296) (each : ∀ item ∈ items, Supported item) :
      Supported (.sequence mark anchor items)
  | mapping (mark : YamlMark) (anchor : Option String) {entries : List (YamlNode × YamlNode)}
      (keys : ∀ entry ∈ entries, entry.1.isScalar = true)
      (each : ∀ entry ∈ entries, Supported entry.2) :
      Supported (.mapping mark anchor entries)

variable (unset : Unset) (file : String)

mutual

/-- The value of a tree. What the anchor of a scalar points to is not kept. -/
def value : YamlNode → YamlValue
  | .scalar mark anchor text =>
    .string (cString text) (locationFromMark mark file) (anchor.map unset.anchor)
  | .aliasOf mark name => .aliasOf (cString name) (locationFromMark mark file)
  | .sequence mark anchor items =>
    .array (itemValues items) (locationFromMark mark file) (anchor.map cString)
  | .mapping mark anchor entries =>
    .mapping (entryValues entries) (locationFromMark mark file) (anchor.map cString)

def itemValues : List YamlNode → List YamlValue
  | [] => []
  | item :: items => value item :: itemValues items

def entryValues : List (YamlNode × YamlNode) → Mapping
  | [] => []
  | (key, node) :: entries => (cString key.keyText, value node) :: entryValues entries

end

theorem length_itemValues (items : List YamlNode) :
    (itemValues unset file items).length = items.length := by
  induction items with
  | nil => rfl
  | cons item items ih =>
    rw [itemValues, List.length_cons, List.length_cons, ih]

/-- With enough turns a node, the items of a sequence and the entries of a mapping are read
up to their own ends, whatever is behind them. -/
structure Reads (turns : Nat) : Prop where
  node : ∀ node, Supported node → node.behind.length < turns → ∀ rest fails,
    Parser.parseYamlValueFromEvent unset file turns node.first ⟨node.behind ++ rest, fails⟩ =
      .done (value unset file node) ⟨rest, fails⟩
  items : ∀ items, (∀ item ∈ items, Supported item) → (itemEvents items).length < turns →
    ∀ array rest fails,
      Parser.sequenceLoop unset file turns array
          ⟨itemEvents items ++ .sequenceEnd :: rest, fails⟩ =
        .done (array ++ itemValues unset file items) ⟨rest, fails⟩
  entries : ∀ entries, (∀ entry ∈ entries, entry.1.isScalar = true) →
    (∀ entry ∈ entries, Supported entry.2) → (entryEvents entries).length < turns →
    ∀ before rest fails,
      Parser.mappingLoop unset file turns before
          ⟨entryEvents entries ++ .mappingEnd :: rest, fails⟩ =
        .done (before ++ entryValues unset file entries) ⟨rest, fails⟩

variable {unset file} {turns : Nat}

theorem Reads.node_succ (reads : Reads unset file turns) {node : YamlNode}
    (supported : Supported node) (enough : node.behind.length < turns + 1)
    (rest : List YamlEvent) (fails : Bool) :
    Parser.parseYamlValueFromEvent unset file (turns + 1) node.first
        ⟨node.behind ++ rest, fails⟩ = .done (value unset file node) ⟨rest, fails⟩ := by
  cases supported with
  | scalar mark anchor text => rfl
  | aliasOf mark name => rfl
  | @sequence mark anchor items few each =>
    rw [behind, List.length_append, List.length_singleton] at enough
    have loop := reads.items items each (by omega) [] rest fails
    have size : (itemValues unset file items).length % 4294967296 =
        (itemValues unset file items).length := by
      rw [length_itemValues]
      exact Nat.mod_eq_of_lt few
    rw [behind, List.append_assoc, List.singleton_append, first,
      Parser.parseYamlValueFromEvent, Parser.parseSequence, loop, List.nil_append,
      ParseResult.map, ParseResult.andThen, size, List.take_length, value]
  | @mapping mark anchor entries keys each =>
    rw [behind, List.length_append, List.length_singleton] at enough
    have loop := reads.entries entries keys each (by omega) [] rest fails
    rw [behind, List.append_assoc, List.singleton_append, first,
      Parser.parseYamlValueFromEvent, Parser.parseMapping, loop, List.nil_append,
      ParseResult.map, ParseResult.andThen, value]

/-- An item is none of the ends. -/
theorem sequenceLoop_item (item : YamlNode) (array : List YamlValue) (rest : List YamlEvent)
    (fails : Bool) :
    Parser.sequenceLoop unset file (turns + 1) array ⟨item.first :: rest, fails⟩ =
      (Parser.parseYamlValueFromEvent unset file turns item.first ⟨rest, fails⟩).andThen
        fun value s => Parser.sequenceLoop unset file turns (array ++ [value]) s := by
  cases item with
  | scalar mark anchor text => rfl
  | aliasOf mark name => rfl
  | sequence mark anchor items => rfl
  | mapping mark anchor entries => rfl

theorem Reads.items_succ (reads : Reads unset file turns) {items : List YamlNode}
    (each : ∀ item ∈ items, Supported item) (enough : (itemEvents items).length < turns + 1)
    (array : List YamlValue) (rest : List YamlEvent) (fails : Bool) :
    Parser.sequenceLoop unset file (turns + 1) array
        ⟨itemEvents items ++ .sequenceEnd :: rest, fails⟩ =
      .done (array ++ itemValues unset file items) ⟨rest, fails⟩ := by
  cases items with
  | nil =>
    rw [itemValues, List.append_nil]
    rfl
  | cons item items =>
    obtain ⟨here, others⟩ := List.forall_mem_cons.mp each
    rw [itemEvents, List.length_cons, List.length_append] at enough
    have now := reads.node item here (by omega) (itemEvents items ++ .sequenceEnd :: rest) fails
    have later := reads.items items others (by omega) (array ++ [value unset file item]) rest fails
    rw [itemEvents, List.cons_append, List.append_assoc, sequenceLoop_item, now,
      ParseResult.andThen, later, itemValues, List.append_assoc, List.singleton_append]

/-- A key that is a scalar is followed by its value. -/
theorem mappingLoop_entry (mark : YamlMark) (anchor : Option String) (text : String)
    (next : YamlEvent) (before : Mapping) (rest : List YamlEvent) (fails : Bool) :
    Parser.mappingLoop unset file (turns + 1) before
        ⟨.scalar mark anchor text :: next :: rest, fails⟩ =
      (Parser.parseYamlValueFromEvent unset file turns next ⟨rest, fails⟩).andThen
        fun value s => Parser.mappingLoop unset file turns (before.insert (cString text) value) s :=
  rfl

theorem Reads.entries_succ (reads : Reads unset file turns)
    {entries : List (YamlNode × YamlNode)} (keys : ∀ entry ∈ entries, entry.1.isScalar = true)
    (each : ∀ entry ∈ entries, Supported entry.2)
    (enough : (entryEvents entries).length < turns + 1) (before : Mapping)
    (rest : List YamlEvent) (fails : Bool) :
    Parser.mappingLoop unset file (turns + 1) before
        ⟨entryEvents entries ++ .mappingEnd :: rest, fails⟩ =
      .done (before ++ entryValues unset file entries) ⟨rest, fails⟩ := by
  cases entries with
  | nil =>
    rw [entryValues, List.append_nil]
    rfl
  | cons entry entries =>
    obtain ⟨key, node⟩ := entry
    obtain ⟨plain, otherKeys⟩ := List.forall_mem_cons.mp keys
    obtain ⟨here, others⟩ := List.forall_mem_cons.mp each
    cases key with
    | scalar mark anchor text =>
      rw [entryEvents, List.length_cons, List.length_append, List.length_cons,
        List.length_append] at enough
      have now := reads.node node here (by omega) (entryEvents entries ++ .mappingEnd :: rest)
        fails
      have later := reads.entries entries otherKeys others (by omega)
        (before ++ [(cString text, value unset file node)]) rest fails
      rw [entryEvents, List.cons_append, List.append_assoc, List.cons_append, List.append_assoc,
        first, behind, List.nil_append, mappingLoop_entry, now, ParseResult.andThen,
        Mapping.insert, later, entryValues, keyText, List.append_assoc, List.singleton_append]
    | aliasOf mark name => cases plain
    | sequence mark anchor items => cases plain
    | mapping mark anchor entries => cases plain

theorem reads (unset : Unset) (file : String) (turns : Nat) : Reads unset file turns := by
  induction turns with
  | zero =>
    exact ⟨fun _ _ none => absurd none (Nat.not_lt_zero _),
      fun _ _ none => absurd none (Nat.not_lt_zero _),
      fun _ _ _ none => absurd none (Nat.not_lt_zero _)⟩
  | succ turns ih =>
    exact ⟨fun _ supported enough => ih.node_succ supported enough,
      fun _ each enough => ih.items_succ each enough,
      fun _ keys each enough => ih.entries_succ keys each enough⟩

end YamlNode

/-- The table that `Insert` makes of a mapping. -/
def tableOf (m : Mapping) : Map YamlValue :=
  (Mapping.log m).foldl (fun table entry => table.insert entry.1 entry.2) {}

theorem foldl_insert_holds {α : Type} (entries : List (CString × α)) {table : Map α}
    {log : List (CString × α)} (holds : table.Holds log) :
    (entries.foldl (fun table entry => table.insert entry.1 entry.2) table).Holds
      (log ++ entries) := by
  induction entries generalizing table log with
  | nil => rwa [List.append_nil]
  | cons entry entries ih =>
    have later := ih (holds.insert entry.1 entry.2)
    rwa [List.append_assoc, List.singleton_append] at later

theorem tableOf_holds (m : Mapping) : (tableOf m).Holds (Mapping.log m) :=
  foldl_insert_holds (Mapping.log m) Map.holds_empty

/-- Every tree whose keys are scalars, with whatever behind it in the stream: its value is
returned and its events are the ones that are gone. In the table of a mapping a key has its
first value, and going through it visits every entry once. -/
theorem yaml_tree_is_rebuilt (unset : Unset) (file : String) {node : YamlNode}
    (supported : node.Supported) {turns : Nat} (enough : node.events.length ≤ turns)
    (rest : List YamlEvent) (fails : Bool) :
    Parser.parseYamlValueFromEvent unset file turns node.first ⟨node.behind ++ rest, fails⟩ =
        .done (node.value unset file) ⟨rest, fails⟩ ∧
      ∀ m : Mapping, (∀ key, (tableOf m).get (octets key) = m.lookup key) ∧
        (tableOf m).entries.Perm (Mapping.log m) ∧
        ∀ n, (tableOf m).resetIterator.nexts n =
          (List.range n).map fun i => (tableOf m).entries[i % ((tableOf m).entries.length + 1)]? := by
  refine ⟨(YamlNode.reads unset file turns).node node supported enough rest fails, fun m => ?_⟩
  obtain ⟨first, visited⟩ := Mapping.holds_log (tableOf_holds m)
  refine ⟨first, ?_, (tableOf m).nexts_entries⟩
  rw [visited]
  exact (Mapping.entries_perm m).map _

/-- `a: [b, *c]`. -/
def smallTree : YamlNode :=
  .mapping ⟨1, 0⟩ none
    [(.scalar ⟨1, 0⟩ none "a",
      .sequence ⟨1, 3⟩ (some "s") [.scalar ⟨1, 4⟩ none "b", .aliasOf ⟨1, 7⟩ "c"])]

def unsetZero : Unset where
  value := .string "" ⟨"", 0, 0⟩ none
  anchor anchor := anchor

theorem yaml_tree_is_rebuilt_small :
    Parser.parseYamlValueFromEvent unsetZero "f" 7 smallTree.first
        ⟨smallTree.behind ++ [.documentEnd], false⟩ =
      .done (smallTree.value unsetZero "f") ⟨[.documentEnd], false⟩ := by
  have supported : smallTree.Supported := by
    refine .mapping _ _ (by decide) fun entry member => ?_
    rw [List.mem_singleton.mp member]
    refine .sequence _ _ (by decide) fun item among => ?_
    rcases List.mem_cons.mp among with rfl | among
    · exact .scalar _ _ _
    · rw [List.mem_singleton.mp among]
      exact .aliasOf _ _
  exact (yaml_tree_is_rebuilt unsetZero "f" supported (by decide) [.documentEnd] false).1

/-- A text of three characters, the second of which is NUL. -/
theorem nul_ends_a_text :
    Parser.parseYamlValueFromEvent unsetZero "f" 1 (.scalar ⟨0, 0⟩ none "a\x00b") ⟨[], false⟩ =
        .done (.string "a" ⟨"f", 0, 0⟩ none) ⟨[], false⟩ ∧ "a\x00b" ≠ "a" := by
  have text : cString "a\x00b" = "a" := by decide
  refine ⟨?_, by decide⟩
  rw [Parser.parseYamlValueFromEvent, text]
  rfl

end Sinuca3.Guarantees
