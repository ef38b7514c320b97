import Sinuca3.Guarantees.YamlTrees

/-!
# Keys that are not scalars

The loop of a mapping passes over the first event of such a key and reads what is in it as
entries. As long as libyaml gives no error nothing else is one: a document is refused only
by its root.
-/
namespace Sinuca3.Guarantees
open Lib Source

/-- Somewhere in the tree is a key that is not a scalar. -/
inductive HasComplexKey : YamlNode → Prop where
  | key {mark : YamlMark} {anchor : Option String} {entries : List (YamlNode × YamlNode)}
      {entry : YamlNode × YamlNode} (member : entry ∈ entries)
      (complex : entry.1.isScalar = false) : HasComplexKey (.mapping mark anchor entries)
  | inKey {mark : YamlMark} {anchor : Option String} {entries : List (YamlNode × YamlNode)}
      {entry : YamlNode × YamlNode} (member : entry ∈ entries)
      (inside : HasComplexKey entry.1) : HasComplexKey (.mapping mark anchor entries)
  | inValue {mark : YamlMark} {anchor : Option String} {entries : List (YamlNode × YamlNode)}
      {entry : YamlNode × YamlNode} (member : entry ∈ entries)
      (inside : HasComplexKey entry.2) : HasComplexKey (.mapping mark anchor entries)
  | inItem {mark : YamlMark} {anchor : Option String} {items : List YamlNode} {item : YamlNode}
      (member : item ∈ items) (inside : HasComplexKey item) :
      HasComplexKey (.sequence mark anchor items)

/-- What libyaml delivers for a document. -/
def documentStream (root : YamlNode) : YamlStream where
  events := .streamStart :: .documentStart :: (root.events ++ [.documentEnd, .streamEnd])

/-- A result that is no error, of a stream that has none left. -/
def NoError {α : Type} : ParseResult α → Prop
  | .running => True
  | .failed => False
  | .done _ rest => rest.fails = false

theorem NoError.andThen {α β : Type} {r : ParseResult α} (first : NoError r)
    {next : α → YamlStream → ParseResult β}
    (second : ∀ value s, s.fails = false → NoError (next value s)) :
    NoError (r.andThen next) := by
  cases r with
  | running => trivial
  | failed => exact first
  | done value rest => exact second value rest first

theorem NoError.map {α β : Type} {r : ParseResult α} (first : NoError r) (f : α → β) :
    NoError (r.map f) :=
  first.andThen fun _ _ fine => fine

/-- A stream without an error always delivers an event. -/
theorem parse_some {s : YamlStream} (fine : s.fails = false) :
    ∃ event s', s.parse = some (event, s') ∧ s'.fails = false := by
  unfold YamlStream.parse
  cases s.events with
  | nil =>
    rw [fine]
    exact ⟨_, _, rfl, fine⟩
  | cons event events => exact ⟨_, _, rfl, fine⟩

section Loops

variable (unset : Unset) (file : String)

/-- No loop of so many turns meets an error. -/
structure Fine (turns : Nat) : Prop where
  mapping : ∀ entries s, s.fails = false →
    NoError (Parser.mappingLoop unset file turns entries s)
  sequence : ∀ array s, s.fails = false →
    NoError (Parser.sequenceLoop unset file turns array s)
  value : ∀ event s, s.fails = false →
    NoError (Parser.parseYamlValueFromEvent unset file turns event s)

variable {unset file} {turns : Nat}

theorem Fine.value_succ (fine : Fine unset file turns) (event : YamlEvent) {s : YamlStream}
    (noError : s.fails = false) :
    NoError (Parser.parseYamlValueFromEvent unset file (turns + 1) event s) := by
  cases event with
  | mappingStart mark anchor => exact (fine.mapping [] s noError).map _
  | sequenceStart mark anchor => exact (fine.sequence [] s noError).map _
  | noEvent | streamStart | streamEnd | documentStart | documentEnd => exact noError
  | aliasOf mark anchor => exact noError
  | scalar mark anchor text => exact noError
  | sequenceEnd | mappingEnd => exact noError

theorem Fine.sequence_succ (fine : Fine unset file turns) (array : List YamlValue)
    {s : YamlStream} (noError : s.fails = false) :
    NoError (Parser.sequenceLoop unset file (turns + 1) array s) := by
  obtain ⟨event, s', parsed, left⟩ := parse_some noError
  rw [Parser.sequenceLoop, parsed]
  cases event with
  | sequenceEnd => exact left
  | _ => exact (fine.value _ s' left).andThen fun _ s fails => fine.sequence _ s fails

theorem Fine.mapping_succ (fine : Fine unset file turns) (entries : Mapping)
    {s : YamlStream} (noError : s.fails = false) :
    NoError (Parser.mappingLoop unset file (turns + 1) entries s) := by
  obtain ⟨event, s', parsed, left⟩ := parse_some noError
  rw [Parser.mappingLoop, parsed]
  cases event with
  | mappingEnd => exact left
  | scalar mark anchor key =>
    obtain ⟨next, s'', again, behind⟩ := parse_some left
    have value : NoError (Parser.parseYamlValue
        (Parser.parseYamlValueFromEvent unset file turns) s') := by
      rw [Parser.parseYamlValue, again]
      exact fine.value next s'' behind
    exact value.andThen fun _ s fails => fine.mapping _ s fails
  | _ => exact fine.mapping entries s' left

theorem fine (unset : Unset) (file : String) (turns : Nat) : Fine unset file turns := by
  induction turns with
  | zero => exact ⟨fun _ _ _ => trivial, fun _ _ _ => trivial, fun _ _ _ => trivial⟩
  | succ turns ih =>
    exact ⟨fun entries _ noError => ih.mapping_succ entries noError,
      fun array _ noError => ih.sequence_succ array noError,
      fun event _ noError => ih.value_succ event noError⟩

end Loops

theorem ensure_mapping (file : String) (mark : YamlMark) (anchor : Option String)
    (entries : List (YamlNode × YamlNode)) :
    ∃ s, s.fails = false ∧
      Parser.ensureFileIsYamlMapping file (documentStream (.mapping mark anchor entries)) =
        some (locationFromMark mark file, s) :=
  ⟨_, rfl, rfl⟩

theorem ensure_other (file : String) {root : YamlNode} (other : root.isMapping = false) :
    Parser.ensureFileIsYamlMapping file (documentStream root) = none := by
  cases root with
  | scalar mark anchor text => rfl
  | aliasOf mark name => rfl
  | sequence mark anchor items => rfl
  | mapping mark anchor entries => cases other

/-- A document is refused exactly if its root is no mapping. -/
theorem document_refused_iff (unset : Unset) (file : String) (root : YamlNode) :
    (∃ turns, Parser.parseDocument unset file turns (documentStream root) = .failed) ↔
      root.isMapping = false := by
  constructor
  · rintro ⟨turns, failed⟩
    cases root with
    | mapping mark anchor entries =>
      obtain ⟨s, left, ensured⟩ := ensure_mapping file mark anchor entries
      have noError : NoError (Parser.parseMapping (Parser.mappingLoop unset file turns)
          (locationFromMark mark file) none s) :=
        ((fine unset file turns).mapping [] s left).map _
      rw [Parser.parseDocument, ensured] at failed
      dsimp only at failed
      rw [failed] at noError
      exact noError.elim
    | _ => rfl
  · intro other
    refine ⟨0, ?_⟩
    rw [Parser.parseDocument, ensure_other file other]

/-- Every document with a key that is not a scalar: it is refused exactly if its root is no
mapping, since nothing in a mapping is. -/
theorem complex_keys_refused_iff (unset : Unset) (configFile : String) {root : YamlNode}
    (_complex : HasComplexKey root) :
    ((∃ turns, Parser.parseString unset turns (documentStream root) = .failed) ↔
      root.isMapping = false) ∧
    ((∃ turns, Parser.parseFile unset turns configFile (some (documentStream root)) = .failed) ↔
      root.isMapping = false) :=
  ⟨document_refused_iff unset "<input string>" root, document_refused_iff unset configFile root⟩

/-- `? {a: b} : c`. -/
def complexEntry : List (YamlNode × YamlNode) :=
  [(.mapping ⟨0, 2⟩ none [(.scalar ⟨0, 3⟩ none "a", .scalar ⟨0, 6⟩ none "b")],
    .scalar ⟨0, 11⟩ none "c")]

theorem complexEntry_complex (mark : YamlMark) :
    HasComplexKey (.mapping mark none complexEntry) :=
  .key List.mem_cons_self rfl

theorem complex_keys_refused_in_list :
    ∃ turns, Parser.parseString unsetZero turns
      (documentStream (.sequence ⟨0, 0⟩ none [.mapping ⟨0, 2⟩ none complexEntry])) = .failed :=
  (complex_keys_refused_iff unsetZero "f" (.inItem List.mem_cons_self
    (complexEntry_complex ⟨0, 2⟩))).1.mpr rfl

/-- The end of the key is taken for the end of the document's mapping. -/
theorem complex_key_replaces_mapping :
    HasComplexKey (.mapping ⟨0, 0⟩ none complexEntry) ∧
    Parser.parseString unsetZero 8 (documentStream (.mapping ⟨0, 0⟩ none complexEntry)) =
      .done (.mapping [("a", .string "b" ⟨"<input string>", 0, 6⟩ none)]
        ⟨"<input string>", 0, 0⟩ none)
        ⟨[.scalar ⟨0, 11⟩ none "c", .mappingEnd, .documentEnd, .streamEnd], false⟩ ∧
    ∀ turns, Parser.parseString unsetZero turns
      (documentStream (.mapping ⟨0, 0⟩ none complexEntry)) ≠ .failed := by
  refine ⟨complexEntry_complex _, ?_, fun turns failed => ?_⟩
  · have key : cString "a" = "a" := by decide
    have value : cString "b" = "b" := by decide
    have parsed : Parser.parseString unsetZero 8
        (documentStream (.mapping ⟨0, 0⟩ none complexEntry)) =
      .done (.mapping [(cString "a", .string (cString "b") ⟨"<input string>", 0, 6⟩ none)]
        ⟨"<input string>", 0, 0⟩ none)
        ⟨[.scalar ⟨0, 11⟩ none "c", .mappingEnd, .documentEnd, .streamEnd], false⟩ := rfl
    rw [parsed, key, value]
  · cases (document_refused_iff unsetZero _ _).mp ⟨turns, failed⟩

end Sinuca3.Guarantees
