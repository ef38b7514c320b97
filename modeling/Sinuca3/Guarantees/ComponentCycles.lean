import Sinuca3.Source.Engine.Configure

/-!
# Cycles of component references

A reference by name builds a new component from the definition of that name. Inline
mappings are parts of the mapping that refers to them and aliases build nothing, so
construction ends where no definition refers to itself by names; one that does is
built forever.
-/
namespace Sinuca3.Guarantees
open Sinuca3.Source Lib.Interaction Relation

/-- The first top-level definition of a name. -/
def definitionAt (config : Mapping) (name : String) : Option Definition :=
  (Mapping.get config name).bind YamlValue.definition

/-- The definitions gathered are those of the entries. -/
theorem lookup_gathered {entries : List (String × YamlValue)}
    (definitions : ∀ e ∈ entries, e.2.definition.isSome) (name : String) :
    (entries.filterMap fun e => e.2.definition.map fun d => (e.1, d)).lookup name =
      (entries.lookup name).bind YamlValue.definition := by
  induction entries with
  | nil => rfl
  | cons e entries ih =>
    obtain ⟨key, value⟩ := e
    obtain ⟨d, isDefinition⟩ := Option.isSome_iff_exists.mp (definitions _ List.mem_cons_self)
    have rest := ih fun e member => definitions e (List.mem_cons_of_mem _ member)
    simp only [List.filterMap_cons, isDefinition, Option.map_some, List.lookup_cons]
    cases name == key with
    | true => exact isDefinition.symm
    | false => exact rest

section References

variable (classes : ComponentClasses)

/-- The value of a parameter that `Configure` may ask for on `d`. -/
def Asks (program : ConfigureProgram) (d : Definition) (value : YamlValue) : Prop :=
  ∃ r d', program.Issues r ∧ d.fork r.path = some d' ∧
    Mapping.get d'.config r.parameter = some value

/-- A component built from `d` may refer to the value. -/
def RefersTo (d : Definition) (value : YamlValue) : Prop :=
  ∃ clazz location configure, d.clazz = .ok (clazz, location) ∧
    classes clazz = some configure ∧ Asks (configure d) d value

/-- A name that a reference is, or comes to through inline mappings. -/
inductive Names : YamlValue → String → Prop where
  | string (text : String) (location : YamlLocation) (anchor : Option String) :
      Names (.string text location anchor) text
  | mapping (entries : Mapping) (location : YamlLocation) (anchor : Option String)
      {value : YamlValue} {text : String} :
      RefersTo classes ⟨entries, location⟩ value → Names value text →
      Names (.mapping entries location anchor) text

/-- The definition of one name may refer to that of another. -/
def RefersByName (config : Mapping) (name name' : String) : Prop :=
  ∃ d value d', definitionAt config name = some d ∧ RefersTo classes d value ∧
    Names classes value name' ∧ definitionAt config name' = some d'

variable {classes} in
theorem RefersByName.defined {config : Mapping} {name name' : String}
    (h : RefersByName classes config name name') : ∃ d, definitionAt config name' = some d := by
  obtain ⟨_, _, d, _, _, _, defined⟩ := h
  exact ⟨d, defined⟩

/-- What the second loop configures: an anchored component, with its own class and the
definition that its name has. -/
def IsConfigured (config : Mapping) (program : ConfigureProgram) (d : Definition) : Prop :=
  ∃ name value own clazz location configure, (name, value) ∈ config ∧
    value.anchored = some own ∧ definitionAt config name = some d ∧
    own.clazz = .ok (clazz, location) ∧ classes clazz = some configure ∧ program = configure d

/-- A name that construction may come to. -/
inductive Reached (config : Mapping) : String → Prop where
  | first {program : ConfigureProgram} {d : Definition} {value : YamlValue} {name : String} :
      IsConfigured classes config program d → Asks program d value → Names classes value name →
      Reached config name
  | next {name name' : String} :
      Reached config name → RefersByName classes config name name' → Reached config name'

end References

/-- The definition that a reference is resolved to. -/
inductive Gives (definitions : List (String × Definition)) : YamlValue → Definition → Prop where
  | string {text : String} {location : YamlLocation} {anchor : Option String} {d : Definition} :
      definitions.lookup text = some d → Gives definitions (.string text location anchor) d
  | mapping (entries : Mapping) (location : YamlLocation) (anchor : Option String) :
      Gives definitions (.mapping entries location anchor) ⟨entries, location⟩

section Issues

variable {classes : ComponentClasses} {aliases : List (String × Linkable)}
  {definitions : List (String × Definition)} {d d' : Definition} {b b' : Building}

/-- Only a definition is called, and nothing but the output changes otherwise. -/
theorem getComponentFromYaml_eq (value : YamlValue) (b : Building) :
    (∃ answer printed, Config.getComponentFromYaml aliases definitions value b =
      .ret (answer, { b with printed })) ∨
    ∃ d, Gives definitions value d ∧
      Config.getComponentFromYaml aliases definitions value b = .call (d, b) .ret := by
  cases value with
  | string text location anchor =>
    rw [Config.getComponentFromYaml, Config.getComponentByString]
    cases found : definitions.lookup text with
    | none => exact .inl ⟨_, _, rfl⟩
    | some d => exact .inr ⟨d, .string found, rfl⟩
  | aliasOf name location =>
    rw [Config.getComponentFromYaml, Config.getComponentByAlias]
    cases aliases.lookup name with
    | none => exact .inl ⟨_, _, rfl⟩
    | some component => exact .inl ⟨_, b.printed, rfl⟩
  | array elements location anchor => exact .inl ⟨_, _, rfl⟩
  | mapping entries location anchor => exact .inr ⟨_, .mapping entries location anchor, rfl⟩

/-- The parameter is resolved if it is there. -/
theorem componentReference_eq (d : Definition) (r : Reference) (b : Building) :
    (∃ answer printed, Config.componentReference aliases definitions d r b =
      .ret (answer, { b with printed })) ∨
    ∃ own value, d.fork r.path = some own ∧ Mapping.get own.config r.parameter = some value ∧
      Config.componentReference aliases definitions d r b =
        (Config.getComponentFromYaml aliases definitions value b).bind fun (component, b) =>
          .ret (((component.filter r.accepts).isNone, component.filter r.accepts), b) := by
  rw [Config.componentReference]
  cases forked : d.fork r.path with
  | none => exact .inl ⟨_, b.printed, rfl⟩
  | some own =>
    dsimp only
    cases got : Mapping.get own.config r.parameter with
    | none =>
      dsimp only
      split
      · exact .inl ⟨_, _, rfl⟩
      · exact .inl ⟨_, b.printed, rfl⟩
    | some value => exact .inr ⟨own, value, rfl, got, rfl⟩

theorem getComponentFromYaml_issues {value : YamlValue}
    (h : (Config.getComponentFromYaml aliases definitions value b).Issues (d', b')) :
    Gives definitions value d' := by
  rcases getComponentFromYaml_eq value b with ⟨_, _, returns⟩ | ⟨d, gives, calls⟩
  · rw [returns] at h
    cases h
  · rw [calls] at h
    cases h with
    | here => exact gives
    | later _ _ _ h => cases h

theorem componentReference_issues {r : Reference}
    (h : (Config.componentReference aliases definitions d r b).Issues (d', b')) :
    ∃ forked value, d.fork r.path = some forked ∧
      Mapping.get forked.config r.parameter = some value ∧ Gives definitions value d' := by
  rcases componentReference_eq d r b with ⟨_, _, returns⟩ | ⟨own, value, forked, got, resolves⟩
  · rw [returns] at h
    cases h
  · rw [resolves] at h
    obtain issued | ⟨result, rest⟩ := Prog.issues_bind h
    · exact ⟨own, value, forked, got, getComponentFromYaml_issues issued⟩
    · cases rest

theorem resolve_issues {program : ConfigureProgram} :
    ∀ {b : Building}, (Config.resolve aliases definitions d program b).Issues (d', b') →
      ∃ value, Asks program d value ∧ Gives definitions value d' := by
  induction program with
  | ret failed =>
    intro b h
    cases h
  | call r next ih =>
    intro b h
    rw [Config.resolve] at h
    obtain issued | ⟨⟨answer, b⟩, rest⟩ := Prog.issues_bind h
    · obtain ⟨forked, value, fork, got, gives⟩ := componentReference_issues issued
      exact ⟨value, ⟨r, forked, .here _ _, fork, got⟩, gives⟩
    · obtain ⟨value, ⟨r', forked, issued, place⟩, gives⟩ := ih answer rest
      exact ⟨value, ⟨r', forked, .later _ _ answer issued, place⟩, gives⟩

theorem configure_issues {component : Linkable}
    (h : (Config.configure classes aliases definitions component d b).Issues (d', b')) :
    ∃ configure value, classes component.clazz = some configure ∧ Asks (configure d) d value ∧
      Gives definitions value d' := by
  rw [Config.configure] at h
  cases found : classes component.clazz with
  | none =>
    simp only [found] at h
    cases h
  | some configure =>
    simp only [found] at h
    obtain ⟨value, asks, gives⟩ := resolve_issues h
    exact ⟨configure, value, rfl, asks, gives⟩

theorem getComponentByMapping_issues
    (h : (Config.getComponentByMapping classes aliases definitions (d, b)).Issues (d', b')) :
    ∃ value, RefersTo classes d value ∧ Gives definitions value d' := by
  rw [Config.getComponentByMapping] at h
  cases own : d.clazz with
  | error lines =>
    simp only [own] at h
    cases h
  | ok found =>
    obtain ⟨clazz, location⟩ := found
    simp only [own] at h
    cases created : classes clazz with
    | none =>
      simp only [created] at h
      cases h
    | some program =>
      simp only [created] at h
      obtain issued | ⟨result, rest⟩ := Prog.issues_bind h
      · obtain ⟨configure, value, ofClass, asks, gives⟩ := configure_issues issued
        exact ⟨value, ⟨clazz, location, configure, own, ofClass, asks⟩, gives⟩
      · cases rest

theorem configureInstances_issues {instances : List InstanceWithDefinition} :
    ∀ {b : Building},
      (Engine.configureInstances classes aliases definitions instances b).Issues (d', b') →
      ∃ i ∈ instances, ∃ d configure value, definitions.lookup i.definition = some d ∧
        classes i.component.clazz = some configure ∧ Asks (configure d) d value ∧
        Gives definitions value d' := by
  induction instances with
  | nil =>
    intro b h
    cases h
  | cons i instances ih =>
    intro b h
    rw [Engine.configureInstances] at h
    cases found : definitions.lookup i.definition with
    | none =>
      simp only [found] at h
      cases h
    | some d =>
      simp only [found] at h
      obtain issued | ⟨⟨failed, between⟩, rest⟩ := Prog.issues_bind h
      · obtain ⟨configure, value, ofClass, asks, gives⟩ := configure_issues issued
        exact ⟨i, List.mem_cons_self, d, configure, value, found, ofClass, asks, gives⟩
      · cases failed with
        | true => cases rest
        | false =>
          obtain ⟨i', member, later⟩ := ih rest
          exact ⟨i', List.mem_cons_of_mem _ member, later⟩

end Issues

section Accessibility

variable {classes : ComponentClasses} {aliases : List (String × Linkable)}
  {definitions : List (String × Definition)} {config : Mapping}

theorem sizeOf_get {m : Mapping} {key : String} {value : YamlValue}
    (h : Mapping.get m key = some value) : sizeOf value < sizeOf m := by
  have member := List.sizeOf_lt_of_mem (Lib.mem_of_lookup h)
  simp only [Prod.mk.sizeOf_spec] at member
  omega

theorem sizeOf_fork {path : List String} : ∀ {d d' : Definition}, d.fork path = some d' →
    sizeOf d'.config ≤ sizeOf d.config := by
  induction path with
  | nil =>
    intro d d' h
    obtain rfl := Option.some.inj h
    exact Nat.le_refl _
  | cons parameter path ih =>
    intro d d' h
    rw [Definition.fork] at h
    split at h
    · rename_i got
      have smaller := sizeOf_get got
      simp only [YamlValue.mapping.sizeOf_spec] at smaller
      have rest := ih h
      simp only at rest
      omega
    · cases h

theorem RefersTo.sizeOf_lt {d : Definition} {value : YamlValue} (h : RefersTo classes d value) :
    sizeOf value < sizeOf d.config := by
  obtain ⟨_, _, _, _, _, _, d', _, forked, got⟩ := h
  exact Nat.lt_of_lt_of_le (sizeOf_get got) (sizeOf_fork forked)

variable (classes definitions) in
/-- Building `d` may build `d'`. -/
def Builds (d d' : Definition) : Prop :=
  ∃ value, RefersTo classes d value ∧ Gives definitions value d'

/-- Resolving a value is founded where it is for every name it comes to: inline mappings
only get smaller. -/
theorem acc_of_value {value : YamlValue}
    (names : ∀ text, Names classes value text → ∀ d, definitions.lookup text = some d →
      Acc (fun d' d => Builds classes definitions d d') d) :
    ∀ {d}, Gives definitions value d → Acc (fun d' d => Builds classes definitions d d') d := by
  induction size : sizeOf value using Nat.strong_induction_on generalizing value with
  | _ n ih =>
    subst size
    intro d gives
    cases gives with
    | string found => exact names _ (.string _ _ _) d found
    | mapping entries location anchor =>
      refine .intro _ fun d' built => ?_
      obtain ⟨value, refers, gives⟩ := built
      have smaller : sizeOf value < sizeOf (YamlValue.mapping entries location anchor) := by
        have inside := refers.sizeOf_lt
        simp only [YamlValue.mapping.sizeOf_spec] at inside ⊢
        omega
      exact ih _ smaller (fun text within => names text (.mapping _ _ _ refers within)) rfl gives

theorem acc_of_name (same : ∀ name, definitions.lookup name = definitionAt config name)
    {name : String} (h : Acc (fun name' name => RefersByName classes config name name') name) :
    ∀ d, definitionAt config name = some d →
      Acc (fun d' d => Builds classes definitions d d') d := by
  induction h with
  | intro name _ ih =>
    intro d defined
    refine .intro _ fun d' built => ?_
    obtain ⟨value, refers, gives⟩ := built
    refine acc_of_value (fun text within d'' found => ?_) gives
    have defined' : definitionAt config text = some d'' := same text ▸ found
    exact ih text ⟨d, value, d'', defined, refers, within, defined'⟩ d'' defined'

theorem finite_definitionAt (config : Mapping) :
    {name | ∃ d, definitionAt config name = some d}.Finite := by
  refine (List.finite_toSet (config.map (·.1))).subset fun name found => ?_
  obtain ⟨d, defined⟩ := found
  obtain ⟨value, got, -⟩ := Option.bind_eq_some_iff.mp defined
  exact List.mem_map.mpr ⟨_, Lib.mem_of_lookup got, rfl⟩

theorem acc_getComponentByMapping {d : Definition}
    (h : Acc (fun d' d => Builds classes definitions d d') d) : ∀ b,
    Acc (fun a' a => (Config.getComponentByMapping classes aliases definitions a).Issues a')
      (d, b) := by
  induction h with
  | intro d _ ih =>
    intro b
    refine .intro _ fun a issued => ?_
    obtain ⟨d', b'⟩ := a
    exact ih d' (getComponentByMapping_issues issued) b'

theorem Reached.trans {name name' : String} (h : Reached classes config name)
    (steps : ReflTransGen (RefersByName classes config) name name') :
    Reached classes config name' := by
  induction steps with
  | refl => exact h
  | tail _ step ih => exact ih.next step

theorem isConfigured_of_gathered {s : TopLevel} {made : List (String × Linkable × Definition)}
    {i : InstanceWithDefinition} {d : Definition} {configure : ComponentClass}
    (gathers : GathersDefinitions (Mapping.entries config) made
      { aliases := [("ENGINE", Engine.self)] } s)
    (member : i ∈ s.instances) (defined : definitionAt config i.definition = some d)
    (ofClass : classes i.component.clazz = some configure) :
    IsConfigured classes config (configure d) d := by
  rw [gathers.instances, List.nil_append] at member
  obtain ⟨⟨name, c, own⟩, inMade, rfl⟩ := List.mem_map.mp member
  obtain ⟨value, entry, anchored⟩ := gathers.entry_of_made inMade
  obtain ⟨location, clazz⟩ := gathers.ofClass _ inMade
  exact ⟨name, value, own, c.clazz, location, configure, Mapping.mem_entries.mp entry, anchored,
    defined, clazz, ofClass, rfl⟩

end Accessibility

theorem acyclic_components_terminate (classes : ComponentClasses) (config : Mapping)
    (acyclic : ∀ name, Reached classes config name →
      ¬ TransGen (RefersByName classes config) name name) :
    ∃ depth result, Engine.configure classes depth config = some result := by
  cases gathered : Engine.gatherDefinitions classes (Mapping.entries config)
      { aliases := [("ENGINE", Engine.self)] } with
  | error lines => exact ⟨0, _, by simp only [Engine.configure, gathered]; rfl⟩
  | ok s =>
    obtain ⟨made, gathers⟩ := Engine.gatherDefinitions_gathers gathered
    have same : ∀ name, s.definitions.lookup name = definitionAt config name := by
      intro name
      rw [gathers.definitions, List.nil_append, lookup_gathered gathers.isDefinition,
        Mapping.lookup_entries, definitionAt]
    obtain ⟨depth, result, answered⟩ := answers_of_evaluates
      (Config.getComponentByMapping classes s.aliases s.definitions)
      (p := Engine.configureInstances classes s.aliases s.definitions s.instances
        { s.building with components := Engine.self :: s.instances.map (·.component) })
      fun a issued => by
        obtain ⟨d', b'⟩ := a
        obtain ⟨i, member, d, configure, value, defined, ofClass, asks, gives⟩ :=
          configureInstances_issues issued
        have configured := isConfigured_of_gathered gathers member (same _ ▸ defined) ofClass
        refine evaluates_of_acc _ (acc_getComponentByMapping (acc_of_value ?_ gives) b')
        intro text names d'' found
        refine acc_of_name same (acc_of_acyclic (finite_definitionAt config)
          (fun _ _ _ refers => refers.defined) fun name steps => ?_) d'' (same text ▸ found)
        exact acyclic name (Reached.trans (.first configured asks names) steps)
    exact ⟨depth, result, by simpa only [Engine.configure, gathered] using answered⟩

/-- What `Config::Bool` takes. -/
def isBoolean (d : Definition) (parameter : String) : Bool :=
  match Mapping.get d.config parameter with
  | none => true
  | some (.string text _ _) => ["true", "yes", "1", "false", "no", "0"].contains text
  | some _ => false

/-- `HardwiredPredictor::Configure`. It sends to predictors only. -/
def hardwiredPredictorClass : ComponentClass := fun d =>
  if ["syscall", "call", "return", "uncond", "cond", "noBranch"].all (isBoolean d) then
    .call
      { parameter := "sendTo"
        accepts := fun c => ["GsharePredictor", "HardwiredPredictor", "Ras"].contains c.clazz }
      fun answer => .ret answer.1
  else .ret true

def predictorClasses : ComponentClasses := fun clazz =>
  if clazz = "HardwiredPredictor" then some hardwiredPredictorClass else none

/-- A predictor, and what it sends to. -/
def predictorDefinition (sendTo : Option YamlValue) : Definition where
  config := ("class", .string "HardwiredPredictor" ⟨"", 0, 0⟩ none) ::
    (sendTo.map fun value => ("sendTo", value)).toList
  location := ⟨"", 0, 0⟩

/-- Anchored, so that it is built. -/
def predictorEntry (name : String) (sendTo : Option YamlValue) : String × YamlValue :=
  (name, .mapping (predictorDefinition sendTo).config ⟨"", 0, 0⟩ (some name))

/-- A reference by name. -/
def named (name : String) : YamlValue := .string name ⟨"", 0, 0⟩ none

/-- A reference to a predictor of its own. -/
def inlined (sendTo : Option YamlValue) : YamlValue :=
  .mapping (predictorDefinition sendTo).config ⟨"", 0, 0⟩ none

theorem hardwiredPredictorClass_eq (sendTo : Option YamlValue) :
    ∃ r, r.path = [] ∧ r.parameter = "sendTo" ∧
      hardwiredPredictorClass (predictorDefinition sendTo) =
        .call r fun answer => .ret answer.1 := by
  cases sendTo with
  | none => exact ⟨_, rfl, rfl, rfl⟩
  | some value => exact ⟨_, rfl, rfl, rfl⟩

/-- A predictor refers to what it sends to. -/
theorem refersTo_predictorDefinition {sendTo : Option YamlValue} {value : YamlValue}
    (h : RefersTo predictorClasses (predictorDefinition sendTo) value) : sendTo = some value := by
  obtain ⟨clazz, location, configure, own, created, r, d', asked, forked, got⟩ := h
  obtain ⟨rfl, -⟩ := Prod.mk.inj (Except.ok.inj own)
  obtain rfl := Option.some.inj created
  obtain ⟨r', path, parameter, program⟩ := hardwiredPredictorClass_eq sendTo
  rw [program] at asked
  cases asked with
  | here =>
    rw [path] at forked
    obtain rfl := Option.some.inj forked
    rw [parameter] at got
    cases sendTo with
    | none => cases got
    | some sendsTo => exact got
  | later _ _ _ h => cases h

/-- A predictor in front of two: one of its own, which refers to the last by name. That one
refers to the first by alias. -/
def predictors : Mapping :=
  [predictorEntry "front" (some (inlined (some (named "back")))),
    predictorEntry "back" (some (.aliasOf "front" ⟨"", 0, 0⟩))]

theorem definitionAt_predictors {name : String} {d : Definition}
    (h : definitionAt predictors name = some d) :
    name = "front" ∧ d = predictorDefinition (some (inlined (some (named "back")))) ∨
      name = "back" ∧ d = predictorDefinition (some (.aliasOf "front" ⟨"", 0, 0⟩)) := by
  by_cases first : name = "front"
  · subst first
    exact .inl ⟨rfl, (Option.some.inj h).symm⟩
  · by_cases second : name = "back"
    · subst second
      exact .inr ⟨rfl, (Option.some.inj h).symm⟩
    · have absent : Mapping.get predictors name = none := by
        simp [Mapping.get, predictors, predictorEntry, first, second]
      rw [definitionAt, absent] at h
      cases h

theorem acyclic_components_terminate_two :
    ∃ depth result, Engine.configure predictorClasses depth predictors = some result := by
  refine acyclic_components_terminate predictorClasses predictors fun name _ cycle => ?_
  have step : ∀ {name name'}, RefersByName predictorClasses predictors name name' →
      name = "front" ∧ name' = "back" := by
    rintro name name' ⟨d, value, -, defined, refers, names, -⟩
    obtain ⟨rfl, rfl⟩ | ⟨rfl, rfl⟩ := definitionAt_predictors defined
    · obtain rfl := Option.some.inj (refersTo_predictorDefinition refers)
      cases names with
      | mapping _ _ _ inner names =>
        obtain rfl := Option.some.inj (refersTo_predictorDefinition inner)
        cases names
        exact ⟨rfl, rfl⟩
    · obtain rfl := Option.some.inj (refersTo_predictorDefinition refers)
      cases names
  obtain ⟨_, first, -⟩ := TransGen.head'_iff.mp cycle
  obtain ⟨_, -, last⟩ := TransGen.tail'_iff.mp cycle
  exact absurd ((step first).1.symm.trans (step last).2) (by decide)

/-- Every reference of a predictor that sends to its own name is one to it again. -/
theorem predictor_calls_itself (aliases : List (String × Linkable)) (b : Building) :
    ∃ b' next, Config.getComponentByMapping predictorClasses aliases
        [("front", predictorDefinition (some (named "front")))]
        (predictorDefinition (some (named "front")), b) =
      .call (predictorDefinition (some (named "front")), b') next := ⟨_, _, rfl⟩

/-- A predictor that sends to itself, by name and not by alias. -/
theorem self_reference_diverges :
    ¬ ∃ depth result, Engine.configure predictorClasses depth
      [predictorEntry "front" (some (named "front"))] = some result := by
  rintro ⟨depth, result, built⟩
  rw [Engine.configure, Mapping.entries_singleton] at built
  change Option.bind (evaluate _ depth (predictorDefinition (some (named "front")), _)) _ = _
    at built
  rw [evaluate_eq_none (S := fun a => a.1 = predictorDefinition (some (named "front"))) _ ?_
    depth _ rfl] at built
  · cases built
  · rintro ⟨_, b⟩ rfl
    obtain ⟨b', next, called⟩ := predictor_calls_itself _ b
    exact ⟨_, next, called, rfl⟩

end Sinuca3.Guarantees
