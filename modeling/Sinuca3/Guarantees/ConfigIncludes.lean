import Mathlib.Data.List.Flatten
import Sinuca3.Source.Engine.Configure

/-!
# Included configuration files

What a configuration with include entries stands for is the one file with the entries
of the included files behind its own, `Inlines`. The parser gets there as long as no
file has two include entries, but it leaves the include entries where they are, and
`Engine::Configure` takes every entry for a component definition.
-/
namespace Sinuca3.Guarantees
open Sinuca3.Source Lib Lib.Interaction

section Spec

def includeEntries (m : Mapping) : List YamlValue :=
  (m.filter fun e => e.1 = "include").map (·.2)

def ownEntries (m : Mapping) : Mapping := m.filter fun e => e.1 ≠ "include"

def textOf : YamlValue → Option String
  | .string text _ _ => some text
  | .aliasOf _ _ => none
  | .array _ _ _ => none
  | .mapping _ _ _ => none

/-- The paths an include entry names, if it is a string or an array of strings. -/
def namesOf : YamlValue → Option (List String)
  | .string text _ _ => some [text]
  | .array elements _ _ => elements.mapM textOf
  | .aliasOf _ _ => none
  | .mapping _ _ _ => none

/-- The paths that all include entries of a file name. -/
def includeNames (m : Mapping) : Option (List String) :=
  ((includeEntries m).mapM namesOf).map List.flatten

variable (files : YamlFiles)

mutual

/-- A mapping and the one file it stands for. -/
inductive Inlines : Mapping → Mapping → Prop where
  | file {m : Mapping} {names : List String} {included : Mapping} :
      includeNames m = some names → InlinesAll names included →
      Inlines m (ownEntries m ++ included)

/-- The inlined files of the paths, one behind the other. -/
inductive InlinesAll : List String → Mapping → Prop where
  | nil : InlinesAll [] []
  | cons {name : String} {names : List String} {file : YamlFile} {part included : Mapping} :
      files name = some (.ok file) → Inlines file.mapping part → InlinesAll names included →
      InlinesAll (name :: names) (part ++ included)

end

/-- `included` behind the file's own entries is what the parsed mapping amounts to. -/
structure AsInlined (config included result : Mapping) : Prop where
  processed : ∀ e ∈ included, e ∈ result
  get_eq : ∀ key, Mapping.get result key = (Mapping.get config key).or (Mapping.get included key)
  configure_eq : ∀ classes depth,
    Engine.configure classes depth result =
      Engine.configure classes depth (ownEntries config ++ included)
  /-- An include entry is no definition, and no error. -/
  skipped : ∀ classes s, ∀ e ∈ Mapping.entries result, e.1 = "include" →
    Engine.configureEntry classes s e = .ok s

def BehavesAsInlined (config result : Mapping) : Prop :=
  ∃ names included, includeNames config = some names ∧ InlinesAll files names included ∧
    AsInlined config included result

end Spec

section Parsing

variable {files : YamlFiles} {P : Parser.Call → YamlResult YamlFile → Prop}

variable (files P) in
/-- What the files of the paths add, each as it was parsed and visited. -/
inductive Adds : List String → Mapping → Prop where
  | nil : Adds [] []
  | cons {name : String} {names : List String} {file new : YamlFile} {more : Mapping} :
      files name = some (.ok file) → P (.processIncludeEntries file) (.ok new) →
      Adds names more → Adds (name :: names) (Mapping.entries new.mapping ++ more)

variable (files P) in
/-- A call to parse a file returns what is given for it. -/
def ParsesFiles : Prop := ∀ name parsed, P (.parseFile name) parsed → files name = some parsed

variable (parses : ParsesFiles files P)
include parses

theorem includeString_adds {config m : Mapping} {text : String}
    (h : Computes P (Parser.includeString config text) (.ok m)) :
    ∃ more, m = config ++ more ∧ Adds files P [text] more := by
  rw [Parser.includeString] at h
  obtain ⟨parsed, opened, h⟩ := h.of_call
  have opened := parses text parsed opened
  cases parsed with
  | error lines => cases h.of_ret
  | ok file =>
    obtain ⟨answer, met, h⟩ := h.of_call
    cases answer with
    | error lines => cases h.of_ret
    | ok new =>
      have merged := Except.ok.inj h.of_ret
      refine ⟨_, merged.trans (Mapping.foldl_insert _ _), ?_⟩
      rw [← List.append_nil (Mapping.entries new.mapping)]
      exact .cons opened met .nil

theorem includeArray_adds {location : YamlLocation} {elements : List YamlValue} :
    ∀ {config m : Mapping},
      Computes P (Parser.includeArray location config elements) (.ok m) →
      ∃ names more, elements.mapM textOf = some names ∧ m = config ++ more ∧
        Adds files P names more := by
  induction elements with
  | nil =>
    intro config m h
    obtain rfl := Except.ok.inj h.of_ret
    exact ⟨[], [], rfl, (List.append_nil _).symm, .nil⟩
  | cons value elements ih =>
    intro config m h
    cases value with
    | string text place anchor =>
      rw [Parser.includeArray] at h
      obtain ⟨first, included, rest⟩ := h.of_bind
      cases first with
      | error lines => cases rest.of_ret
      | ok between =>
        obtain ⟨more, rfl, added⟩ := includeString_adds parses included
        obtain ⟨names, others, named, rfl, addedRest⟩ := ih rest
        refine ⟨text :: names, more ++ others, by simp [List.mapM_cons, textOf, named],
          by rw [List.append_assoc], ?_⟩
        cases added with
        | cons opened met last =>
          cases last
          rw [List.append_nil]
          exact .cons opened met addedRest
    | aliasOf name place => cases h.of_ret
    | array elements place anchor => cases h.of_ret
    | mapping entries place anchor => cases h.of_ret

/-- Everything a successful `ProcessIncludeEntries` can do. -/
theorem processIncludeEntries_adds {config result : YamlFile}
    (h : Computes P (Parser.processIncludeEntries config) (.ok result)) :
    ∃ more, result = { config with mapping := config.mapping ++ more } ∧
      (Mapping.get config.mapping "include" = none ∧ more = [] ∨
        ∃ value names, Mapping.get config.mapping "include" = some value ∧
          namesOf value = some names ∧ Adds files P names more) := by
  rw [Parser.processIncludeEntries] at h
  cases entry : Mapping.get config.mapping "include" with
  | none =>
    simp only [entry] at h
    obtain rfl := Except.ok.inj h.of_ret
    exact ⟨[], by rw [List.append_nil], .inl ⟨rfl, rfl⟩⟩
  | some value =>
    cases value with
    | string text place anchor =>
      simp only [entry] at h
      obtain ⟨first, included, rest⟩ := h.of_bind
      cases first with
      | error lines => cases rest.of_ret
      | ok m =>
        obtain rfl := Except.ok.inj rest.of_ret
        obtain ⟨more, rfl, added⟩ := includeString_adds parses included
        exact ⟨more, rfl, .inr ⟨_, _, rfl, rfl, added⟩⟩
    | array elements place anchor =>
      simp only [entry] at h
      obtain ⟨first, included, rest⟩ := h.of_bind
      cases first with
      | error lines => cases rest.of_ret
      | ok m =>
        obtain rfl := Except.ok.inj rest.of_ret
        obtain ⟨names, more, named, rfl, added⟩ := includeArray_adds parses included
        exact ⟨more, rfl, .inr ⟨_, _, rfl, named, added⟩⟩
    | aliasOf name place =>
      simp only [entry] at h
      cases h.of_ret
    | mapping entries place anchor =>
      simp only [entry] at h
      cases h.of_ret

end Parsing

section Merging

theorem get_include (m : Mapping) :
    Mapping.get m "include" = (includeEntries m).head? := by
  induction m with
  | nil => rfl
  | cons e m ih =>
    obtain ⟨key, value⟩ := e
    rw [Mapping.get, List.lookup_cons, includeEntries, List.filter_cons]
    by_cases same : key = "include"
    · simp [same]
    · have other : ("include" == key) = false := by simpa using Ne.symm same
      simpa [same, other, includeEntries, Mapping.get] using ih

theorem lookup_ownEntries (m : Mapping) {key : String} (other : key ≠ "include") :
    (ownEntries m).lookup key = m.lookup key := by
  have kept := lookup_filter_key (fun k => decide (k ≠ "include")) key m
  rw [if_pos (decide_eq_true other)] at kept
  exact kept

theorem includeNames_nil {m : Mapping} (nothing : includeEntries m = []) :
    includeNames m = some [] := by
  rw [includeNames, nothing]
  rfl

theorem includeNames_singleton {m : Mapping} {value : YamlValue} {names : List String}
    (only : includeEntries m = [value]) (named : namesOf value = some names) :
    includeNames m = some names := by
  simp [includeNames, only, named]

/-- At most one include entry a file. -/
def SingleIncludes (files : YamlFiles) : Prop :=
  ∀ name file, files name = some (.ok file) → (includeEntries file.mapping).length ≤ 1

/-- `more` is `included`, but for include entries. -/
structure SameEntries (included more : Mapping) : Prop where
  members : ∀ e ∈ included, e ∈ more
  lookups : ∀ key, key ≠ "include" → more.lookup key = included.lookup key

theorem SameEntries.nil : SameEntries [] [] := ⟨fun _ member => member, fun _ _ => rfl⟩

theorem SameEntries.append {included more included' more' : Mapping}
    (h : SameEntries included more) (h' : SameEntries included' more') :
    SameEntries (included ++ included') (more ++ more') where
  members e member := by
    rcases List.mem_append.mp member with first | second
    · exact List.mem_append_left _ (h.members e first)
    · exact List.mem_append_right _ (h'.members e second)
  lookups key other := by
    rw [List.lookup_append, List.lookup_append, h.lookups key other, h'.lookups key other]

/-- A file's own entries as they are, and as its parser hands them on. -/
theorem sameEntries_own (m : Mapping) : SameEntries (ownEntries m) m where
  members _ member := (List.mem_filter.mp member).1
  lookups _ other := (lookup_ownEntries m other).symm

theorem SameEntries.entries {included more : Mapping} (h : SameEntries included more) :
    SameEntries included (Mapping.entries more) where
  members e member := Mapping.mem_entries.mpr (h.members e member)
  lookups key other := (Mapping.lookup_entries more key).trans (h.lookups key other)

variable {files : YamlFiles}

variable (files) in
/-- What a parsed file amounts to. -/
def Merged (file : YamlFile) (parsed : YamlResult YamlFile) : Prop :=
  (includeEntries file.mapping).length ≤ 1 → ∀ new, parsed = .ok new →
    ∃ names included more, includeNames file.mapping = some names ∧
      InlinesAll files names included ∧
      new = { file with mapping := file.mapping ++ more } ∧ SameEntries included more

variable (files) in
/-- What a call returns. -/
def CallMerged : Parser.Call → YamlResult YamlFile → Prop
  | .parseFile name, parsed => files name = some parsed
  | .processIncludeEntries file, parsed => Merged files file parsed

theorem inlinesAll_of_adds (single : SingleIncludes files) {names : List String} {more : Mapping}
    (h : Adds files (CallMerged files) names more) :
    ∃ included, InlinesAll files names included ∧ SameEntries included more := by
  induction h with
  | nil => exact ⟨[], .nil, .nil⟩
  | @cons name names file new more opened merged _ ih =>
    obtain ⟨rest, inlinedRest, sameRest⟩ := ih
    obtain ⟨inner, part, added, named, inlined, rfl, same⟩ :=
      merged (single name file opened) new rfl
    exact ⟨_, .cons opened (.file named inlined) inlinedRest,
      ((sameEntries_own file.mapping).append same).entries.append sameRest⟩

/-- A call to parse a file that returns, returns what is given for it. -/
theorem perform_parseFile {P : Parser.Call → YamlResult YamlFile → Prop} {name : String}
    {parsed : YamlResult YamlFile} (self : ∀ parsed, P (.parseFile name) parsed →
      files name = some parsed)
    (h : Computes P (Parser.perform files (.parseFile name)) parsed) :
    files name = some parsed := by
  rw [Parser.perform] at h
  cases opened : files name with
  | none =>
    simp only [opened] at h
    obtain ⟨answer, met, h⟩ := h.of_call
    rw [h.of_ret, ← opened]
    exact self answer met
  | some result =>
    simp only [opened] at h
    rw [h.of_ret]

theorem evaluate_parseFile {depth : Nat} {name : String} {parsed : YamlResult YamlFile}
    (h : evaluate (Parser.perform files) depth (.parseFile name) = some parsed) :
    files name = some parsed := by
  refine evaluate_induction (Parser.perform files)
    (P := fun call parsed => ∀ name, call = .parseFile name → files name = some parsed)
    ?_ depth _ parsed h name rfl
  rintro _ parsed computes name rfl
  exact perform_parseFile (fun parsed met => met name rfl) computes

theorem evaluate_merged (single : SingleIncludes files) (depth : Nat) (file : YamlFile)
    (parsed : YamlResult YamlFile)
    (h : evaluate (Parser.perform files) depth (.processIncludeEntries file) = some parsed) :
    Merged files file parsed := by
  refine evaluate_induction (Parser.perform files) (P := CallMerged files) ?_ depth _ parsed h
  intro call parsed computes
  cases call with
  | parseFile name => exact perform_parseFile (fun _ met => met) computes
  | processIncludeEntries file =>
    intro one new eq
    subst eq
    obtain ⟨more, rfl, ⟨no, rfl⟩ | ⟨value, names, entry, named, added⟩⟩ :=
      @processIncludeEntries_adds files _ (fun _ _ met => met) _ _ computes
    · have nothing : includeEntries file.mapping = [] := by
        rw [get_include] at no
        exact List.head?_eq_none_iff.mp no
      exact ⟨[], [], [], includeNames_nil nothing, .nil, rfl, .nil⟩
    · obtain ⟨included, inlined, same⟩ := inlinesAll_of_adds single added
      have only : includeEntries file.mapping = [value] := by
        rw [get_include] at entry
        obtain ⟨others, eq⟩ := List.head?_eq_some_iff.mp entry
        rw [eq, List.length_cons] at one
        rw [eq, List.length_eq_zero_iff.mp (by omega : others.length = 0)]
      exact ⟨names, included, more, includeNames_singleton only named, inlined, rfl, same⟩

end Merging

section Includes

variable {files : YamlFiles} {depth : Nat} {root : String} {config result : YamlFile}

theorem evaluate_of_parsed (opened : files root = some (.ok config))
    (parsed : Parser.parseFileWithIncludes files depth root = some (.ok result)) :
    evaluate (Parser.perform files) depth (.processIncludeEntries config) =
      some (.ok result) := by
  rw [Parser.parseFileWithIncludes, Parser.fileWithIncludes] at parsed
  obtain ⟨first, answered, parsed⟩ := Option.bind_eq_some_iff.mp parsed
  obtain rfl := Option.some.inj (opened.symm.trans (evaluate_parseFile answered))
  obtain ⟨second, evaluated, returned⟩ := Option.bind_eq_some_iff.mp parsed
  rw [evaluated]
  exact returned

/-- The root file's entries stay, include entries too, and the first of these is what
it should be. -/
theorem parsed_extends (opened : files root = some (.ok config))
    (parsed : Parser.parseFileWithIncludes files depth root = some (.ok result)) :
    ∃ more, result.mapping = config.mapping ++ more ∧
      (includeEntries config.mapping = [] ∧ more = [] ∨
        ∃ value others names, includeEntries config.mapping = value :: others ∧
          namesOf value = some names) := by
  cases depth with
  | zero => cases evaluate_of_parsed opened parsed
  | succ depth =>
    have evaluated := evaluate_of_parsed opened parsed
    rw [evaluate] at evaluated
    have computes := computes_of_answer
      (P := fun call parsed => ∀ name, call = .parseFile name → files name = some parsed)
      (by
        rintro _ parsed answered name rfl
        exact evaluate_parseFile answered) evaluated
    obtain ⟨more, rfl, ⟨no, rfl⟩ | ⟨value, names, entry, named, -⟩⟩ :=
      processIncludeEntries_adds (fun name _ met => met name rfl) computes
    · exact ⟨[], rfl, .inl ⟨List.head?_eq_none_iff.mp (get_include _ ▸ no), rfl⟩⟩
    · obtain ⟨others, eq⟩ := List.head?_eq_some_iff.mp (get_include _ ▸ entry)
      exact ⟨more, rfl, .inr ⟨value, others, names, eq, named⟩⟩

/-- Where no file has two include entries the inlined file is what is looked up. -/
theorem parsed_merges (single : SingleIncludes files) (opened : files root = some (.ok config))
    (parsed : Parser.parseFileWithIncludes files depth root = some (.ok result)) :
    ∃ names included, includeNames config.mapping = some names ∧
      InlinesAll files names included ∧ (∀ e ∈ included, e ∈ result.mapping) ∧
      ∀ key, Mapping.get result.mapping key =
        (Mapping.get config.mapping key).or (Mapping.get included key) := by
  have merged := evaluate_merged single depth config _ (evaluate_of_parsed opened parsed)
  obtain ⟨names, included, more, named, inlined, rfl, same⟩ :=
    merged (single root config opened) result rfl
  refine ⟨names, included, named, inlined,
    fun e member => List.mem_append_right _ (same.members e member), fun key => ?_⟩
  rw [Mapping.get, Mapping.get, Mapping.get, List.lookup_append]
  by_cases other : key = "include"
  · subst other
    cases entry : config.mapping.lookup "include" with
    | some value => rfl
    | none =>
      have nothing : includeEntries config.mapping = [] :=
        List.head?_eq_none_iff.mp ((get_include _).symm.trans entry)
      obtain ⟨more', eq, ⟨-, empty⟩ | ⟨value, others, -, some, -⟩⟩ := parsed_extends opened parsed
      · obtain rfl := (List.append_cancel_left eq).trans empty
        rw [List.eq_nil_iff_forall_not_mem.mpr fun e member =>
          List.not_mem_nil (same.members e member)]
      · cases nothing.symm.trans some
  · rw [same.lookups key other]

/-- An entry fails or adds a definition. -/
theorem configureEntry_ne (classes : ComponentClasses) (s : TopLevel)
    (entry : String × YamlValue) : Engine.configureEntry classes s entry ≠ .ok s := by
  obtain ⟨name, value⟩ := entry
  cases value with
  | mapping entries location anchor =>
    intro unchanged
    simp only [Engine.configureEntry, newComponentDefinition] at unchanged
    have grown := congrArg
      (fun r : YamlResult TopLevel => (r.toOption.map (·.definitions.length))) unchanged
    cases found : Definition.clazz ⟨entries, location⟩ with
    | error lines => simp [found, Except.toOption] at grown
    | ok clazz =>
      cases anchor with
      | none => simp [found, Except.toOption] at grown
      | some anchor =>
        cases created : classes clazz.1 with
        | none => simp [found, created, Except.toOption] at grown
        | some _ => simp [found, created, Except.toOption] at grown
  | string text location anchor =>
    intro unchanged
    cases unchanged
  | aliasOf name location =>
    intro unchanged
    cases unchanged
  | array elements location anchor =>
    intro unchanged
    cases unchanged

theorem not_asInlined {included : Mapping} {value : YamlValue}
    (left : ("include", value) ∈ result.mapping) :
    ¬ AsInlined config.mapping included result.mapping := fun inlined =>
  configureEntry_ne (fun _ => none) {} _
    (inlined.skipped (fun _ => none) {} _ (Mapping.mem_entries.mpr left) rfl)

theorem mem_includeEntries {m : Mapping} {value : YamlValue} :
    value ∈ includeEntries m ↔ ("include", value) ∈ m := by
  simp [includeEntries]

theorem gatherDefinitions_fails {classes : ComponentClasses} {entries : List (String × YamlValue)}
    {e : String × YamlValue} (member : e ∈ entries)
    (fails : ∀ s, ∃ lines, Engine.configureEntry classes s e = .error lines) :
    ∀ s, ∃ lines, Engine.gatherDefinitions classes entries s = .error lines := by
  induction entries with
  | nil => cases member
  | cons first entries ih =>
    intro s
    rw [Engine.gatherDefinitions]
    cases gathered : Engine.configureEntry classes s first with
    | error lines => exact ⟨lines, rfl⟩
    | ok s' =>
      rcases List.mem_cons.mp member with rfl | later
      · obtain ⟨lines, failed⟩ := fails s
        rw [failed] at gathered
        cases gathered
      · exact ih later s'

/-- No configuration with an include entry is ever accepted. -/
theorem configure_refuses_includes (opened : files root = some (.ok config))
    (parsed : Parser.parseFileWithIncludes files depth root = some (.ok result))
    (includes : includeEntries config.mapping ≠ []) (classes : ComponentClasses) (n : Nat) :
    ∃ b, Engine.configure classes n result.mapping = some (true, b) := by
  obtain ⟨more, extended, ⟨nothing, -⟩ | ⟨value, others, names, some, named⟩⟩ :=
    parsed_extends opened parsed
  · exact (includes nothing).elim
  · have member : ("include", value) ∈ Mapping.entries result.mapping := by
      rw [Mapping.mem_entries, extended]
      exact List.mem_append_left _ (mem_includeEntries.mp (by rw [some]; exact List.mem_cons_self))
    have fails : ∀ s, ∃ lines,
        Engine.configureEntry classes s ("include", value) = .error lines := by
      cases value with
      | mapping entries location anchor => cases named
      | string text location anchor => exact fun s => ⟨_, rfl⟩
      | aliasOf name location => exact fun s => ⟨_, rfl⟩
      | array elements location anchor => exact fun s => ⟨_, rfl⟩
    obtain ⟨lines, failed⟩ :=
      gatherDefinitions_fails member fails { aliases := [("ENGINE", Engine.self)] }
    exact ⟨{ printed := lines }, by simp only [Engine.configure, failed]⟩

theorem includes_behave_as_inlined (files : YamlFiles) (depth : Nat) (root : String)
    (config result : YamlFile) (opened : files root = some (.ok config))
    (parsed : Parser.parseFileWithIncludes files depth root = some (.ok result)) :
    BehavesAsInlined files config.mapping result.mapping ↔ includeEntries config.mapping = [] := by
  obtain ⟨more, extended, ⟨nothing, unchanged⟩ | ⟨value, others, -, some, -⟩⟩ :=
    parsed_extends opened parsed
  · refine iff_of_true ?_ nothing
    have no : ∀ value, ("include", value) ∉ config.mapping := fun value member =>
      List.eq_nil_iff_forall_not_mem.mp nothing value (mem_includeEntries.mpr member)
    have own : ownEntries config.mapping = config.mapping :=
      List.filter_eq_self.mpr fun e member =>
        decide_eq_true fun key => no e.2 (key ▸ member)
    rw [extended, unchanged, List.append_nil]
    refine ⟨[], [], includeNames_nil nothing, .nil,
      fun _ member => (List.not_mem_nil member).elim, fun key => ?_, fun classes depth => ?_,
      fun classes s e member key => ?_⟩
    · exact Option.or_none.symm
    · rw [List.append_nil, own]
    · exact (no e.2 (key ▸ Mapping.mem_entries.mp member)).elim
  · refine iff_of_false ?_ (by rw [some]; exact List.cons_ne_nil _ _)
    rintro ⟨names, included, -, -, inlined⟩
    have left : ("include", value) ∈ result.mapping := by
      rw [extended]
      exact List.mem_append_left _ (mem_includeEntries.mp (by rw [some]; exact List.mem_cons_self))
    exact not_asInlined left inlined

end Includes

/-- The places and the class of the files below do not matter. -/
def somewhere : YamlLocation := ⟨"", 0, 0⟩

def definitionOf (clazz : String) : YamlValue :=
  .mapping [("class", .string clazz somewhere none)] somewhere none

def noIncludes : YamlFiles := fun name =>
  if name = "root.yaml" then some (.ok ⟨[("memory", definitionOf "SimpleMemory")], somewhere⟩)
  else some (.error ["No such config file: " ++ name ++ "."])

theorem includes_behave_as_inlined_none :
    BehavesAsInlined noIncludes [("memory", definitionOf "SimpleMemory")]
        [("memory", definitionOf "SimpleMemory")] ↔
      includeEntries [("memory", definitionOf "SimpleMemory")] = [] :=
  includes_behave_as_inlined noIncludes 1 "root.yaml" ⟨_, somewhere⟩ ⟨_, somewhere⟩ rfl rfl

/-- A string and an array, in two include entries. -/
def twoIncludes : YamlFile where
  mapping := [("include", .string "first.yaml" somewhere none),
    ("include", .array [.string "second.yaml" somewhere none] somewhere none)]
  location := somewhere

def twoIncludesFiles : YamlFiles := fun name =>
  if name = "root.yaml" then some (.ok twoIncludes)
  else if name = "first.yaml" then
    some (.ok ⟨[("first", definitionOf "SimpleMemory")], somewhere⟩)
  else if name = "second.yaml" then
    some (.ok ⟨[("second", definitionOf "SimpleMemory")], somewhere⟩)
  else some (.error ["No such config file: " ++ name ++ "."])

theorem twoIncludes_parsed :
    Parser.parseFileWithIncludes twoIncludesFiles 2 "root.yaml" =
      some (.ok ⟨twoIncludes.mapping ++ [("first", definitionOf "SimpleMemory")], somewhere⟩) := by
  rw [← Mapping.entries_singleton ("first", definitionOf "SimpleMemory"), ← Mapping.foldl_insert]
  rfl

/-- The second entry is not processed, and no configuration succeeds. -/
theorem two_includes_fail : ∃ result,
    Parser.parseFileWithIncludes twoIncludesFiles 2 "root.yaml" = some (.ok result) ∧
    Mapping.get result.mapping "second" = none ∧
    (∀ classes depth, ∃ b, Engine.configure classes depth result.mapping = some (true, b)) ∧
    ¬ BehavesAsInlined twoIncludesFiles twoIncludes.mapping result.mapping := by
  refine ⟨_, twoIncludes_parsed, rfl, fun classes depth => ?_, ?_⟩
  · have opened : twoIncludesFiles "root.yaml" = some (.ok twoIncludes) := rfl
    exact configure_refuses_includes opened twoIncludes_parsed (List.cons_ne_nil _ _) classes depth
  · rintro ⟨names, included, -, -, inlined⟩
    exact not_asInlined (List.mem_append_left _ List.mem_cons_self) inlined

end Sinuca3.Guarantees
