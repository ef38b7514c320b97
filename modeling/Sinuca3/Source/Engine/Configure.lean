import Sinuca3.Source.Config.Config

/-!
# Engine configuration

`NewComponentDefinition` and `Engine::Configure` of `engine/engine.cpp`, called as
`main` does, with nothing built and no aliases. The first loop gathers the definitions
and creates the anchored ones, the second configures these, and what they refer to is
created on the way.
-/
namespace Sinuca3.Source
open Lib.Interaction

/-- What the loops of `Configure` share. -/
structure TopLevel where
  definitions : List (String × Definition) := []
  aliases : List (String × Linkable) := []
  instances : List InstanceWithDefinition := []
  building : Building := {}

def newComponentDefinition (classes : ComponentClasses) (s : TopLevel) (config : Mapping)
    (name : String) (anchor : Option String) (location : YamlLocation) : YamlResult TopLevel :=
  let definition : Definition := ⟨config, location⟩
  match definition.clazz with
  | .error lines => .error lines
  | .ok (clazz, clazzLocation) =>
    let s := { s with definitions := s.definitions ++ [(name, definition)] }
    match anchor with
    | none => .ok s
    | some anchor =>
      match classes clazz with
      | none => .error [noSuchClass clazz clazzLocation]
      | some _ =>
        let component := s.building.fresh clazz
        .ok { s with
          aliases := s.aliases ++ [(anchor, component)]
          instances := s.instances ++ [⟨component, name⟩]
          building := s.building.create clazz definition }

namespace Engine

/-- The engine itself, as a component. -/
def self : Linkable := ⟨0, "Engine"⟩

/-- The body of the first loop. -/
def configureEntry (classes : ComponentClasses) (s : TopLevel) (entry : String × YamlValue) :
    YamlResult TopLevel :=
  match entry.2 with
  | .mapping config location anchor =>
    newComponentDefinition classes s config entry.1 anchor location
  | value => .error [value.location.printed ++
      " Toplevel configuration parameter is not a mapping: " ++ entry.1]

def gatherDefinitions (classes : ComponentClasses) :
    List (String × YamlValue) → TopLevel → YamlResult TopLevel
  | [], s => .ok s
  | entry :: entries, s =>
    match configureEntry classes s entry with
    | .error lines => .error lines
    | .ok s => gatherDefinitions classes entries s

/-- The second loop. A definition is always there, which an assertion says. -/
def configureInstances (classes : ComponentClasses) (aliases : List (String × Linkable))
    (definitions : List (String × Definition)) :
    List InstanceWithDefinition → Building → Config.Constructing Bool
  | [], b => .ret (false, b)
  | i :: instances, b =>
    match definitions.lookup i.definition with
    | none => .ret (true, b)
    | some d =>
      (Config.configure classes aliases definitions i.component d b).bind fun (failed, b) =>
        if failed then .ret (true, b)
        else configureInstances classes aliases definitions instances b

/-- At most `depth` references are open at a time; `none` is not having returned. The
components of the engine are those of the building. -/
def configure (classes : ComponentClasses) (depth : Nat) (config : Mapping) :
    Option (Bool × Building) :=
  match gatherDefinitions classes (Mapping.entries config) { aliases := [("ENGINE", self)] } with
  | .error lines => some (true, { printed := lines })
  | .ok s =>
    (configureInstances classes s.aliases s.definitions s.instances
        { s.building with components := self :: s.instances.map (·.component) }).answer
      (evaluate (Config.getComponentByMapping classes s.aliases s.definitions) depth)

end Engine
/-- The definition that a top-level value is. -/
def YamlValue.definition : YamlValue → Option Definition
  | .mapping entries location _ => some ⟨entries, location⟩
  | .string _ _ _ => none
  | .aliasOf _ _ => none
  | .array _ _ _ => none

/-- The definition of an anchored value. -/
def YamlValue.anchored : YamlValue → Option Definition
  | .mapping entries location (some _) => some ⟨entries, location⟩
  | .mapping _ _ none => none
  | .string _ _ _ => none
  | .aliasOf _ _ => none
  | .array _ _ _ => none

/-- Everything a successful first loop does: `made` are the anchored components, with
the names and the definitions they are of. -/
structure GathersDefinitions (entries : List (String × YamlValue))
    (made : List (String × Linkable × Definition)) (s s' : TopLevel) : Prop where
  isDefinition : ∀ e ∈ entries, e.2.definition.isSome
  definitions : s'.definitions =
    s.definitions ++ entries.filterMap fun e => e.2.definition.map fun d => (e.1, d)
  instances : s'.instances = s.instances ++ made.map fun m => ⟨m.2.1, m.1⟩
  building : s'.building = { s.building with created := s.building.created ++ made.map (·.2) }
  anchored : made.map (fun m => (m.1, m.2.2)) =
    entries.filterMap fun e => e.2.anchored.map fun d => (e.1, d)
  ofClass : ∀ m ∈ made, ∃ location, m.2.2.clazz = .ok (m.2.1.clazz, location)
  numbered : made.map (fun m => m.2.1.id) =
    List.range' (s.building.created.length + 1) made.length

namespace GathersDefinitions

variable {s s' s'' : TopLevel}

theorem nil : GathersDefinitions [] [] s s where
  isDefinition _ member := by cases member
  definitions := (List.append_nil _).symm
  instances := (List.append_nil _).symm
  building := by simp
  anchored := rfl
  ofClass _ member := by cases member
  numbered := rfl

theorem append {entries more : List (String × YamlValue)}
    {made made' : List (String × Linkable × Definition)}
    (first : GathersDefinitions entries made s s')
    (second : GathersDefinitions more made' s' s'') :
    GathersDefinitions (entries ++ more) (made ++ made') s s'' where
  isDefinition e member := (List.mem_append.mp member).elim (first.isDefinition e)
    (second.isDefinition e)
  definitions := by
    rw [second.definitions, first.definitions, List.filterMap_append, List.append_assoc]
  instances := by rw [second.instances, first.instances, List.map_append, List.append_assoc]
  building := by rw [second.building, first.building]; simp
  anchored := by rw [List.map_append, first.anchored, second.anchored, List.filterMap_append]
  ofClass m member := (List.mem_append.mp member).elim (first.ofClass m) (second.ofClass m)
  numbered := by
    have start : s'.building.created.length + 1 =
        s.building.created.length + 1 + made.length := by
      rw [first.building, List.length_append, List.length_map]
      omega
    rw [List.map_append, first.numbered, second.numbered, start, List.length_append,
      List.range'_append_1]

theorem entry_of_made {entries : List (String × YamlValue)}
    {made : List (String × Linkable × Definition)} (h : GathersDefinitions entries made s s')
    {name : String} {c : Linkable} {d : Definition} (inMade : (name, c, d) ∈ made) :
    ∃ value, (name, value) ∈ entries ∧ value.anchored = some d := by
  have gathered : (name, d) ∈ made.map fun m => (m.1, m.2.2) :=
    List.mem_map.mpr ⟨_, inMade, rfl⟩
  rw [h.anchored] at gathered
  obtain ⟨⟨_, value⟩, member, same⟩ := List.mem_filterMap.mp gathered
  obtain ⟨_, anchored, same⟩ := Option.map_eq_some_iff.mp same
  obtain ⟨rfl, rfl⟩ := Prod.mk.inj same
  exact ⟨value, member, anchored⟩

end GathersDefinitions

namespace Engine

variable {classes : ComponentClasses}

theorem configureEntry_gathers {s s' : TopLevel} {e : String × YamlValue}
    (h : configureEntry classes s e = .ok s') :
    ∃ made, GathersDefinitions [e] made s s' := by
  obtain ⟨name, value⟩ := e
  cases value with
  | string text location anchor => cases h
  | aliasOf name location => cases h
  | array elements location anchor => cases h
  | mapping entries location anchor =>
    simp only [configureEntry, newComponentDefinition] at h
    cases own : Definition.clazz ⟨entries, location⟩ with
    | error lines =>
      simp only [own] at h
      cases h
    | ok found =>
      cases anchor with
      | none =>
        simp only [own] at h
        obtain rfl := Except.ok.inj h
        exact ⟨[], by simp [YamlValue.definition], rfl, (List.append_nil _).symm, by simp,
          rfl, fun _ member => (List.not_mem_nil member).elim, rfl⟩
      | some anchor =>
        cases created : classes found.1 with
        | none =>
          simp only [own, created] at h
          cases h
        | some program =>
          simp only [own, created] at h
          obtain rfl := Except.ok.inj h
          refine ⟨[(name, s.building.fresh found.1, ⟨entries, location⟩)],
            by simp [YamlValue.definition], rfl, rfl, rfl, rfl, fun m member => ?_, rfl⟩
          obtain rfl := List.mem_singleton.mp member
          exact ⟨found.2, own⟩

theorem gatherDefinitions_gathers {entries : List (String × YamlValue)} :
    ∀ {s s' : TopLevel}, gatherDefinitions classes entries s = .ok s' →
      ∃ made, GathersDefinitions entries made s s' := by
  induction entries with
  | nil =>
    intro s s' h
    obtain rfl := Except.ok.inj h
    exact ⟨[], .nil⟩
  | cons e entries ih =>
    intro s s' h
    rw [gatherDefinitions] at h
    cases entry : configureEntry classes s e with
    | error lines =>
      simp only [entry] at h
      cases h
    | ok between =>
      simp only [entry] at h
      obtain ⟨made, first⟩ := configureEntry_gathers entry
      obtain ⟨made', rest⟩ := ih h
      exact ⟨made ++ made', first.append rest⟩

end Engine
end Sinuca3.Source
