import Sinuca3.Source.Yaml.YamlValue

/-!
# YAML events

The part of `yaml/yaml_parser.cpp` that reads libyaml's events: a stream of them that ends
in an error or goes on with no events for ever. A loop that has run out of turns is still
running. Texts are C strings, so they end at their first NUL.
-/
namespace Sinuca3.Source

structure YamlMark where
  line : Nat
  column : Nat
  deriving DecidableEq

/-- The events with what is read of them. -/
inductive YamlEvent where
  | noEvent
  | streamStart | streamEnd | documentStart | documentEnd
  | aliasOf (mark : YamlMark) (anchor : String)
  | scalar (mark : YamlMark) (anchor : Option String) (value : String)
  | sequenceStart (mark : YamlMark) (anchor : Option String)
  | sequenceEnd
  | mappingStart (mark : YamlMark) (anchor : Option String)
  | mappingEnd
  deriving DecidableEq

structure YamlStream where
  events : List YamlEvent
  /-- Behind the events is an error. -/
  fails : Bool := false

/-- `yaml_parser_parse`; `none` is an error. -/
def YamlStream.parse (s : YamlStream) : Option (YamlEvent × YamlStream) :=
  match s.events with
  | event :: events => some (event, { s with events })
  | [] => if s.fails then none else some (.noEvent, s)

inductive ParseResult (α : Type) where
  | running
  /-- The return code 1. -/
  | failed
  | done (value : α) (rest : YamlStream)

namespace ParseResult

variable {α β : Type}

def andThen (r : ParseResult α) (next : α → YamlStream → ParseResult β) : ParseResult β :=
  match r with
  | running => running
  | failed => failed
  | done value rest => next value rest

def map (f : α → β) (r : ParseResult α) : ParseResult β :=
  r.andThen fun value rest => done (f value) rest

/-- What came to its end stays as it is. -/
def Extends (r r' : ParseResult α) : Prop := r = .running ∨ r' = r

theorem Extends.refl (r : ParseResult α) : r.Extends r := .inr rfl

theorem Extends.trans {r r' r'' : ParseResult α} (first : r.Extends r')
    (second : r'.Extends r'') : r.Extends r'' := by
  rcases first with running | rfl
  · exact .inl running
  · exact second

theorem Extends.andThen {r r' : ParseResult α} (first : r.Extends r')
    {next next' : α → YamlStream → ParseResult β}
    (second : ∀ value s, (next value s).Extends (next' value s)) :
    (r.andThen next).Extends (r'.andThen next') := by
  rcases first with rfl | rfl
  · exact .inl rfl
  · cases r' with
    | running => exact .refl _
    | failed => exact .refl _
    | done value rest => exact second value rest

theorem Extends.map {r r' : ParseResult α} (first : r.Extends r') (f : α → β) :
    (r.map f).Extends (r'.map f) := first.andThen fun _ _ => .refl _

end ParseResult

/-- What is read where nothing was written. -/
structure Unset where
  /-- A value that is never assigned. -/
  value : YamlValue
  /-- The octets of an anchor after its event is deleted. -/
  anchor : String → String

/-- A text as a C string. -/
def cString (text : String) : String :=
  String.ofList (text.toList.takeWhile fun c => c ≠ '\x00')

def locationFromMark (mark : YamlMark) (file : String) : YamlLocation where
  file := file
  line := mark.line
  column := mark.column

namespace Parser

/-- `ParseYamlValue`, for a `ParseYamlValueFromEvent`. -/
def parseYamlValue (fromEvent : YamlEvent → YamlStream → ParseResult YamlValue)
    (s : YamlStream) : ParseResult YamlValue :=
  match s.parse with
  | none => .failed
  | some (event, s) => fromEvent event s

/-- `ParseMapping`, for its loop. -/
def parseMapping (loop : Mapping → YamlStream → ParseResult Mapping) (location : YamlLocation)
    (anchor : Option String) (s : YamlStream) : ParseResult YamlValue :=
  (loop [] s).map fun entries => .mapping entries location (anchor.map cString)

/-- `ParseSequence`, for its loop; the size is an `unsigned int`. -/
def parseSequence (loop : List YamlValue → YamlStream → ParseResult (List YamlValue))
    (location : YamlLocation) (anchor : Option String) (s : YamlStream) : ParseResult YamlValue :=
  (loop [] s).map fun array =>
    .array (array.take (array.length % 4294967296)) location (anchor.map cString)

variable (unset : Unset) (file : String)

mutual

/-- The loop of `ParseMapping`. A strange event is passed over. -/
def mappingLoop : Nat → Mapping → YamlStream → ParseResult Mapping
  | 0, _, _ => .running
  | turns + 1, entries, s =>
    match s.parse with
    | none => .failed
    | some (.scalar _ _ key, s) =>
      (parseYamlValue (parseYamlValueFromEvent turns) s).andThen fun value s =>
        mappingLoop turns (entries.insert (cString key) value) s
    | some (.mappingEnd, s) => .done entries s
    | some (_, s) => mappingLoop turns entries s

/-- The loop of `ParseSequence`. -/
def sequenceLoop : Nat → List YamlValue → YamlStream → ParseResult (List YamlValue)
  | 0, _, _ => .running
  | turns + 1, array, s =>
    match s.parse with
    | none => .failed
    | some (.sequenceEnd, s) => .done array s
    | some (event, s) =>
      (parseYamlValueFromEvent turns event s).andThen fun value s =>
        sequenceLoop turns (array ++ [value]) s

/-- A strange event leaves the value as it is. -/
def parseYamlValueFromEvent : Nat → YamlEvent → YamlStream → ParseResult YamlValue
  | 0, _, _ => .running
  | turns + 1, event, s =>
    match event with
    | .aliasOf mark anchor => .done (.aliasOf (cString anchor) (locationFromMark mark file)) s
    | .scalar mark anchor value =>
      .done (.string (cString value) (locationFromMark mark file) (anchor.map unset.anchor)) s
    | .mappingStart mark anchor =>
      parseMapping (mappingLoop turns) (locationFromMark mark file) anchor s
    | .sequenceStart mark anchor =>
      parseSequence (sequenceLoop turns) (locationFromMark mark file) anchor s
    | _ => .done unset.value s

end

/-- The location of the mapping that the file is. -/
def ensureFileIsYamlMapping (s : YamlStream) : Option (YamlLocation × YamlStream) :=
  match s.parse with
  | some (.streamStart, s) =>
    match s.parse with
    | some (.documentStart, s) =>
      match s.parse with
      | some (.mappingStart mark _, s) => some (locationFromMark mark file, s)
      | _ => none
    | _ => none
  | _ => none

/-- What `ParseFile` and `ParseString` share. -/
def parseDocument (turns : Nat) (s : YamlStream) : ParseResult YamlValue :=
  match ensureFileIsYamlMapping file s with
  | none => .failed
  | some (location, s) => parseMapping (mappingLoop unset file turns) location none s

def parseString (turns : Nat) (s : YamlStream) : ParseResult YamlValue :=
  parseDocument unset "<input string>" turns s

/-- Nothing is given for a file that cannot be opened. -/
def parseFile (turns : Nat) (configFile : String) (opened : Option YamlStream) :
    ParseResult YamlValue :=
  match opened with
  | none => .failed
  | some s => parseDocument unset configFile turns s

section Turns

variable {unset : Unset} {file : String} {turns : Nat}

variable (unset file turns) in
/-- One more turn leaves the results of the loops as they are. -/
structure Stable : Prop where
  mapping : ∀ entries s, (mappingLoop unset file turns entries s).Extends
    (mappingLoop unset file (turns + 1) entries s)
  sequence : ∀ array s, (sequenceLoop unset file turns array s).Extends
    (sequenceLoop unset file (turns + 1) array s)
  value : ∀ event s, (parseYamlValueFromEvent unset file turns event s).Extends
    (parseYamlValueFromEvent unset file (turns + 1) event s)

theorem Stable.value_succ (stable : Stable unset file turns) (event : YamlEvent)
    (s : YamlStream) : (parseYamlValueFromEvent unset file (turns + 1) event s).Extends
      (parseYamlValueFromEvent unset file (turns + 2) event s) := by
  cases event with
  | mappingStart mark anchor => exact (stable.mapping [] s).map _
  | sequenceStart mark anchor => exact (stable.sequence [] s).map _
  | noEvent | streamStart | streamEnd | documentStart | documentEnd => exact .refl _
  | aliasOf mark anchor => exact .refl _
  | scalar mark anchor text => exact .refl _
  | sequenceEnd | mappingEnd => exact .refl _

theorem Stable.sequence_succ (stable : Stable unset file turns) (array : List YamlValue)
    (s : YamlStream) : (sequenceLoop unset file (turns + 1) array s).Extends
      (sequenceLoop unset file (turns + 2) array s) := by
  rw [sequenceLoop, sequenceLoop]
  match s.parse with
  | none => exact .refl _
  | some (event, s) =>
    cases event with
    | sequenceEnd => exact .refl _
    | _ => exact (stable.value _ s).andThen fun _ s => stable.sequence _ s

theorem Stable.mapping_succ (stable : Stable unset file turns) (entries : Mapping)
    (s : YamlStream) : (mappingLoop unset file (turns + 1) entries s).Extends
      (mappingLoop unset file (turns + 2) entries s) := by
  rw [mappingLoop, mappingLoop]
  match s.parse with
  | none => exact .refl _
  | some (event, s) =>
    cases event with
    | mappingEnd => exact .refl _
    | scalar mark anchor key =>
      have value : (parseYamlValue (parseYamlValueFromEvent unset file turns) s).Extends
          (parseYamlValue (parseYamlValueFromEvent unset file (turns + 1)) s) := by
        unfold parseYamlValue
        match s.parse with
        | none => exact .refl _
        | some (event, s) => exact stable.value event s
      exact value.andThen fun _ s => stable.mapping _ s
    | _ => exact stable.mapping entries s

theorem stable (unset : Unset) (file : String) (turns : Nat) : Stable unset file turns := by
  induction turns with
  | zero => exact ⟨fun _ _ => .inl rfl, fun _ _ => .inl rfl, fun _ _ => .inl rfl⟩
  | succ turns ih =>
    exact ⟨fun entries s => ih.mapping_succ entries s, fun array s => ih.sequence_succ array s,
      fun event s => ih.value_succ event s⟩

/-- A file that was parsed is parsed alike in more turns. -/
theorem parseFile_extends {more : Nat} (enough : turns ≤ more) (configFile : String)
    (opened : Option YamlStream) : (parseFile unset turns configFile opened).Extends
      (parseFile unset more configFile opened) := by
  induction enough with
  | refl => exact .refl _
  | step _ ih =>
    refine ih.trans ?_
    unfold parseFile parseDocument
    match opened with
    | none => exact .refl _
    | some s =>
      dsimp only
      match ensureFileIsYamlMapping configFile s with
      | none => exact .refl _
      | some (location, s) => exact ((stable unset configFile _).mapping [] s).map _

end Turns

end Parser
end Sinuca3.Source
