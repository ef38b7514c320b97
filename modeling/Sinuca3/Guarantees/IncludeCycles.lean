import Sinuca3.Guarantees.ComplexKeys
import Sinuca3.Guarantees.ConfigIncludes

/-!
# Cycles of included files

Nothing remembers which files are being included. Parsing ends when the files reached
from the root file do not include themselves, and a file that does is parsed forever. So
is a file on which `ParseFile` alone does not return.
-/
namespace Sinuca3.Guarantees
open Sinuca3.Source Lib.Interaction Relation

/-- The paths that `ProcessIncludeEntries` may open: of the first include entry, up to
what is not a string. -/
def openedNames (m : Mapping) : List String :=
  match Mapping.get m "include" with
  | some (.string text _ _) => [text]
  | some (.array elements _ _) => elements.filterMap textOf
  | some (.aliasOf _ _) => []
  | some (.mapping _ _ _) => []
  | none => []

section Calls

variable {files : YamlFiles}

theorem evaluates_parseFile {name : String} {result : YamlResult YamlFile}
    (given : files name = some result) :
    Evaluates (Parser.perform files) (.parseFile name) result :=
  ⟨1, by simp only [evaluate, Parser.perform, given, Prog.answer]⟩

variable (files) in
/-- Parsing the file of the path returns, and so do its include entries. -/
structure Includable (name : String) : Prop where
  parses : ∃ result, files name = some result
  processes : ∀ file, files name = some (.ok file) →
    ∃ result, Evaluates (Parser.perform files) (.processIncludeEntries file) result

theorem includeString_ends {config : Mapping} {text : String} (includable : Includable files text) :
    Ends (Evaluates (Parser.perform files)) (Parser.includeString config text) := by
  obtain ⟨⟨result, given⟩, processes⟩ := includable
  refine .call _ _ ⟨result, evaluates_parseFile given⟩ fun parsed answered => ?_
  obtain ⟨_, answered⟩ := answered
  cases parsed with
  | error lines => exact .ret _
  | ok file =>
    refine .call _ _ (processes file (evaluate_parseFile answered)) fun merged _ => ?_
    cases merged with
    | error lines => exact .ret _
    | ok file => exact .ret _

theorem includeArray_ends {location : YamlLocation} {elements : List YamlValue}
    (includable : ∀ name ∈ elements.filterMap textOf, Includable files name) :
    ∀ config : Mapping, Ends (Evaluates (Parser.perform files))
      (Parser.includeArray location config elements) := by
  induction elements with
  | nil => exact fun config => .ret _
  | cons value elements ih =>
    intro config
    cases value with
    | string text place anchor =>
      rw [Parser.includeArray]
      have here : Includable files text := includable text (by simp [textOf])
      have later : ∀ name ∈ elements.filterMap textOf, Includable files name :=
        fun name member => includable name (by
          simp only [List.filterMap_cons, textOf]
          exact .tail _ member)
      refine (includeString_ends here).bind fun included => ?_
      cases included with
      | error lines => exact .ret _
      | ok config => exact ih later config
    | aliasOf name place => exact .ret _
    | array elements place anchor => exact .ret _
    | mapping entries place anchor => exact .ret _

theorem processIncludeEntries_ends {config : YamlFile}
    (includable : ∀ name ∈ openedNames config.mapping, Includable files name) :
    Ends (Evaluates (Parser.perform files)) (Parser.processIncludeEntries config) := by
  have last : ∀ result, Ends (Evaluates (Parser.perform files))
      (Parser.included config result) := by
    intro result
    cases result with
    | error lines => exact .ret _
    | ok mapping => exact .ret _
  rw [Parser.processIncludeEntries]
  cases entry : Mapping.get config.mapping "include" with
  | none => exact .ret _
  | some value =>
    simp only [openedNames, entry] at includable
    cases value with
    | string text place anchor =>
      exact (includeString_ends (includable text List.mem_cons_self)).bind last
    | array elements place anchor => exact (includeArray_ends includable config.mapping).bind last
    | aliasOf name place => exact .ret _
    | mapping entries place anchor => exact .ret _

/-- Where what a file includes is below it in a well-founded relation, it is included. -/
theorem includable_of_acc {r : String → String → Prop} {name : String}
    (founded : Acc (fun name' name => r name name') name)
    (opens : ∀ name' file, ReflTransGen r name name' → files name' = some (.ok file) →
      ∀ opened ∈ openedNames file.mapping, ∃ result, files opened = some result ∧
        ∀ file', result = .ok file' → r name' opened)
    (parses : ∃ result, files name = some result) : Includable files name := by
  induction founded with
  | intro name _ ih =>
    refine ⟨parses, fun file given => evaluates_of_ends _ (processIncludeEntries_ends ?_)⟩
    intro opened member
    obtain ⟨result, returned, below⟩ := opens name file .refl given opened member
    cases result with
    | error lines =>
      refine ⟨⟨_, returned⟩, fun file' parsed => ?_⟩
      rw [returned] at parsed
      cases parsed
    | ok file' =>
      have step := below file' rfl
      exact ih opened step (fun name' file reached => opens name' file (.head step reached))
        ⟨_, returned⟩

theorem fileWithIncludes_ends {root : String} (includable : Includable files root) :
    Ends (Evaluates (Parser.perform files)) (Parser.fileWithIncludes root) := by
  obtain ⟨⟨result, given⟩, processes⟩ := includable
  refine .call _ _ ⟨result, evaluates_parseFile given⟩ fun parsed answered => ?_
  obtain ⟨_, answered⟩ := answered
  cases parsed with
  | error lines => exact .ret _
  | ok file => exact .call _ _ (processes file (evaluate_parseFile answered)) fun _ _ => .ret _

end Calls

section Streams

variable (unset : Unset) (opened : String → Option YamlStream) (printed : String → List String)

/-- A file and the one it includes. -/
def IncludesFile (name name' : String) : Prop :=
  (opened name').isSome ∧ ∃ turns file,
    YamlFiles.ofStreams unset opened printed turns name = some (.ok file) ∧
      name' ∈ openedNames file.mapping

/-- `ParseFile` returns. -/
def ParseReturns (name : String) : Prop :=
  ∃ turns result, YamlFiles.ofStreams unset opened printed turns name = some result

variable {unset opened printed}

theorem ofStreams_mono {turns more : Nat} (enough : turns ≤ more) {name : String}
    {result : YamlResult YamlFile}
    (given : YamlFiles.ofStreams unset opened printed turns name = some result) :
    YamlFiles.ofStreams unset opened printed more name = some result := by
  have kept := @Parser.parseFile_extends unset turns more enough name (opened name)
  unfold YamlFiles.ofStreams at given ⊢
  rcases kept with running | same
  · rw [running] at given
    cases given
  · rw [same]
    exact given

/-- What `ParseFile` returns does not depend on the turns. -/
theorem ofStreams_unique {turns turns' : Nat} {name : String} {result result' : YamlResult YamlFile}
    (given : YamlFiles.ofStreams unset opened printed turns name = some result)
    (given' : YamlFiles.ofStreams unset opened printed turns' name = some result') :
    result = result' :=
  Option.some.inj ((ofStreams_mono (Nat.le_max_left turns turns') given).symm.trans
    (ofStreams_mono (Nat.le_max_right turns turns') given'))

theorem ofStreams_missing {name : String} (missing : opened name = none) (turns : Nat) :
    YamlFiles.ofStreams unset opened printed turns name = some (.error (printed name)) := by
  unfold YamlFiles.ofStreams Parser.parseFile
  rw [missing]

end Streams

/-- Event streams of finitely many files, of which none that is reached from the root file
includes itself: if `ParseFile` returns on each of these, so does `ParseFileWithIncludes`. -/
theorem acyclic_includes_terminate (unset : Unset) (opened : String → Option YamlStream)
    (printed : String → List String) (root : String)
    (finite : {name | (opened name).isSome}.Finite)
    (returns : ∀ name, ReflTransGen (IncludesFile unset opened printed) root name →
      ParseReturns unset opened printed name)
    (acyclic : ∀ name, ReflTransGen (IncludesFile unset opened printed) root name →
      ¬ TransGen (IncludesFile unset opened printed) name name) :
    ∃ turns depth result, Parser.parseFileWithIncludes
      (YamlFiles.ofStreams unset opened printed turns) depth root = some result := by
  have founded := acc_of_acyclic finite (fun _ _ _ includes => includes.1) acyclic
  -- There are turns enough for all of the files.
  have enough : ∃ most, ∀ name, ReflTransGen (IncludesFile unset opened printed) root name →
      ∃ result, YamlFiles.ofStreams unset opened printed most name = some result := by
    choose! turns result given using returns
    obtain ⟨most, bound⟩ := ((finite.insert root).image turns).bddAbove
    refine ⟨most, fun name reached => ⟨result name, ofStreams_mono (bound ⟨name, ?_, rfl⟩)
      (given name reached)⟩⟩
    cases ReflTransGen.cases_tail reached with
    | inl same => exact .inl same
    | inr last =>
      obtain ⟨_, _, exists_, _⟩ := last
      exact .inr exists_
  obtain ⟨most, parses⟩ := enough
  have includable : Includable (YamlFiles.ofStreams unset opened printed most) root := by
    refine includable_of_acc founded (fun name file reached given name' member => ?_)
      (parses root .refl)
    cases here : opened name' with
    | none =>
      refine ⟨_, ofStreams_missing here most, fun file' wrong => ?_⟩
      cases wrong
    | some stream =>
      have step : IncludesFile unset opened printed name name' :=
        ⟨by rw [here]; rfl, most, file, given, member⟩
      obtain ⟨result, returned⟩ := parses name' (reached.tail step)
      exact ⟨result, returned, fun _ _ => step⟩
  obtain ⟨depth, result, answered⟩ := (fileWithIncludes_ends includable).answers
  exact ⟨most, depth, result, answered⟩

section Examples

/-- The document of one scalar entry. -/
def entryStream (key value : String) : YamlStream :=
  documentStream (.mapping ⟨0, 0⟩ none [(.scalar ⟨0, 0⟩ none key, .scalar ⟨0, 9⟩ none value)])

/-- A root file that includes another, and nothing else. -/
def oneIncludeStreams : String → Option YamlStream := fun name =>
  if name = "root.yaml" then some (entryStream "include" "first.yaml")
  else if name = "first.yaml" then some (entryStream "first" "SimpleMemory")
  else none

def noSuchFile (name : String) : List String := ["No such config file: " ++ name ++ "."]

/-- Four turns are enough for such a document. -/
theorem ofStreams_entry {unset : Unset} {opened : String → Option YamlStream}
    {printed : String → List String} {name key value : String}
    (here : opened name = some (entryStream key value)) :
    YamlFiles.ofStreams unset opened printed 4 name = some (.ok
      ⟨[(cString key, .string (cString value) ⟨name, 0, 9⟩ none)], ⟨name, 0, 0⟩⟩) := by
  unfold YamlFiles.ofStreams Parser.parseFile
  rw [here]
  rfl

theorem oneIncludeStreams_opened {name : String} (here : (oneIncludeStreams name).isSome) :
    name ∈ ["root.yaml", "first.yaml"] := by
  unfold oneIncludeStreams at here
  split at here
  · simp_all
  · split at here
    · simp_all
    · cases here

theorem oneIncludeStreams_parses {name : String} (here : name ∈ ["root.yaml", "first.yaml"]) :
    ParseReturns unsetZero oneIncludeStreams noSuchFile name := by
  rcases List.mem_cons.mp here with rfl | here
  · exact ⟨4, _, ofStreams_entry rfl⟩
  · rw [List.mem_singleton.mp here]
    exact ⟨4, _, ofStreams_entry rfl⟩

/-- Only the root file opens another. -/
theorem includesFile_oneInclude {name name' : String}
    (includes : IncludesFile unsetZero oneIncludeStreams noSuchFile name name') :
    name = "root.yaml" ∧ name' = "first.yaml" := by
  obtain ⟨_, turns, file, parsed, member⟩ := includes
  have root : cString "include" = "include" := by decide
  have leaf : cString "first" = "first" := by decide
  have first : cString "first.yaml" = "first.yaml" := by decide
  have there : (oneIncludeStreams name).isSome := by
    by_contra missing
    rw [ofStreams_missing (Option.not_isSome_iff_eq_none.mp missing)] at parsed
    cases parsed
  rcases List.mem_cons.mp (oneIncludeStreams_opened there) with rfl | other
  · have same := ofStreams_unique parsed (ofStreams_entry rfl)
    obtain rfl := Except.ok.inj same
    rw [root, first] at member
    exact ⟨rfl, List.mem_singleton.mp member⟩
  · rw [List.mem_singleton.mp other] at parsed
    have same := ofStreams_unique parsed (ofStreams_entry rfl)
    obtain rfl := Except.ok.inj same
    rw [leaf] at member
    cases member

theorem acyclic_includes_terminate_one :
    ∃ turns depth result, Parser.parseFileWithIncludes
      (YamlFiles.ofStreams unsetZero oneIncludeStreams noSuchFile turns) depth "root.yaml" =
        some result := by
  refine acyclic_includes_terminate unsetZero oneIncludeStreams noSuchFile "root.yaml"
    ((List.finite_toSet ["root.yaml", "first.yaml"]).subset fun name => oneIncludeStreams_opened)
    (fun name reached => ?_) fun name _ cycle => ?_
  · cases ReflTransGen.cases_tail reached with
    | inl same => exact oneIncludeStreams_parses (by rw [same]; decide)
    | inr last =>
      obtain ⟨_, _, exists_, _⟩ := last
      exact oneIncludeStreams_parses (oneIncludeStreams_opened exists_)
  · obtain ⟨_, first, -⟩ := TransGen.head'_iff.mp cycle
    obtain ⟨_, -, last⟩ := TransGen.tail'_iff.mp cycle
    have root := (includesFile_oneInclude first).1
    have leaf := (includesFile_oneInclude last).2
    exact absurd (root.symm.trans leaf) (by decide)

def selfIncludingStreams : String → Option YamlStream := fun name =>
  if name = "root.yaml" then some (entryStream "include" "root.yaml") else none

/-- A file whose include entry names itself is being included for ever. -/
theorem evaluate_selfIncluding {files : YamlFiles} {name : String} {config : YamlFile}
    (self : files name = some (.ok config))
    {location : YamlLocation} {anchor : Option String}
    (entry : Mapping.get config.mapping "include" = some (.string name location anchor))
    (depth : Nat) :
    evaluate (Parser.perform files) depth (.processIncludeEntries config) = none := by
  induction depth with
  | zero => rfl
  | succ depth ih =>
    rw [evaluate, Parser.perform, Parser.processIncludeEntries, entry]
    cases parsed : evaluate (Parser.perform files) depth (.parseFile name) with
    | none => simp only [Parser.includeString, Prog.bind, Prog.answer, parsed, Option.bind_none]
    | some result =>
      obtain rfl := Option.some.inj (self.symm.trans (evaluate_parseFile parsed))
      simp only [Parser.includeString, Prog.bind, Prog.answer, parsed, ih, Option.bind_some,
        Option.bind_none]

/-- A stream without events leaves the loop of a mapping running. -/
theorem mappingLoop_exhausted (unset : Unset) (file : String) (turns : Nat) :
    ∀ entries, Parser.mappingLoop unset file turns entries ⟨[], false⟩ = .running := by
  induction turns with
  | zero => exact fun _ => rfl
  | succ turns ih => exact fun entries => ih entries

/-- The document `[x, y]: z`. -/
def sequenceKey : YamlStream :=
  documentStream (.mapping ⟨0, 0⟩ none
    [(.sequence ⟨0, 0⟩ none [.scalar ⟨0, 1⟩ none "x", .scalar ⟨0, 4⟩ none "y"],
      .scalar ⟨0, 8⟩ none "z")])

def sequenceKeyStreams : String → Option YamlStream := fun name =>
  if name = "root.yaml" then some sequenceKey else none

/-- The end of the mapping is taken for the value of `z`. -/
theorem sequenceKey_running :
    ¬ ParseReturns unsetZero sequenceKeyStreams noSuchFile "root.yaml" := by
  rintro ⟨turns, result, parsed⟩
  have later := ofStreams_mono (Nat.le_add_right turns 7) parsed
  have running : Parser.parseFile unsetZero (turns + 7) "root.yaml"
      (sequenceKeyStreams "root.yaml") = .running := by
    have loop : Parser.parseFile unsetZero (turns + 7) "root.yaml"
        (sequenceKeyStreams "root.yaml") =
      (Parser.mappingLoop unsetZero "root.yaml" (turns + 1)
        [(cString "x", .string (cString "y") ⟨"root.yaml", 0, 4⟩ none),
          (cString "z", unsetZero.value)] ⟨[], false⟩).map fun entries =>
            .mapping entries ⟨"root.yaml", 0, 0⟩ none := rfl
    rw [loop, mappingLoop_exhausted]
    rfl
  unfold YamlFiles.ofStreams at later
  rw [running] at later
  cases later

/-- A file that includes itself; and, without any include entry, one whose parse does not
end. -/
theorem self_include_diverges :
    {name | (selfIncludingStreams name).isSome}.Finite ∧
    ParseReturns unsetZero selfIncludingStreams noSuchFile "root.yaml" ∧
    (∀ turns depth, Parser.parseFileWithIncludes
      (YamlFiles.ofStreams unsetZero selfIncludingStreams noSuchFile turns) depth "root.yaml" =
        none) ∧
    ¬ ParseReturns unsetZero sequenceKeyStreams noSuchFile "root.yaml" := by
  refine ⟨?_, ⟨4, _, ofStreams_entry rfl⟩, fun turns depth => ?_, sequenceKey_running⟩
  · refine (Set.finite_singleton "root.yaml").subset fun name here => ?_
    change (selfIncludingStreams name).isSome at here
    unfold selfIncludingStreams at here
    split at here
    · assumption
    · cases here
  · rw [Parser.parseFileWithIncludes, Parser.fileWithIncludes, Prog.answer]
    cases parsed : evaluate (Parser.perform (YamlFiles.ofStreams unsetZero selfIncludingStreams
        noSuchFile turns)) depth (.parseFile "root.yaml") with
    | none => rfl
    | some result =>
      have given := evaluate_parseFile parsed
      obtain rfl := ofStreams_unique given (ofStreams_entry rfl)
      have root : cString "include" = "include" := by decide
      have itself : cString "root.yaml" = "root.yaml" := by decide
      have endless := @evaluate_selfIncluding _ "root.yaml" _ given _ _
        (by rw [root, itself]; rfl) depth
      rw [Option.bind_some]
      simp only [Prog.answer, endless, Option.bind_none]

end Examples

end Sinuca3.Guarantees
