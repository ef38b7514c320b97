import Sinuca3.Source.Engine.Configure

/-!
# Destruction of the components

The components that `Engine::Configure` and `Engine::~Engine` of `engine/engine.cpp`
`delete`, as `main` runs them. `Configure` deletes what it has created where it fails; once
it has succeeded the components are those of the engine, which deletes them at the end.
-/
namespace Sinuca3.Source
open Lib.Interaction

/-- How the first loop of `Configure` ends. -/
inductive Gathering where
  | all (s : TopLevel)
  /-- It returns at once. -/
  | notMapping (s : TopLevel)
  /-- `NewComponentDefinition` failed. -/
  | rejected (s : TopLevel)

/-- What `CreateComponentByClass` returned until `main` is over, and what was deleted. -/
structure Lifetimes where
  created : List Linkable
  deleted : List Linkable

namespace Engine

/-- What the first loop starts with. -/
def started : TopLevel := { aliases := [("ENGINE", self)] }

/-- The first loop, with the state it stops in. -/
def gather (classes : ComponentClasses) : List (String × YamlValue) → TopLevel → Gathering
  | [], s => .all s
  | (name, value) :: entries, s =>
    match value with
    | .mapping config location anchor =>
      match newComponentDefinition classes s config name anchor location with
      | .error _ => .rejected s
      | .ok s => gather classes entries s
    | _ => .notMapping s

/-- The first component is the engine itself. -/
def deleteComponents (components : List Linkable) : List Linkable := components.drop 1

/-- `~Engine`; a `Configure` that failed has left no components. -/
def destroy : Option (List Linkable) → List Linkable
  | none => []
  | some components => deleteComponents components

/-- A simulation deletes no component. -/
def lifetimes (classes : ComponentClasses) (depth : Nat) (config : Mapping) : Option Lifetimes :=
  match gather classes (Mapping.entries config) started with
  | .notMapping s =>
    some { created := s.building.created.map (·.1), deleted := destroy none }
  | .rejected s =>
    some { created := s.building.created.map (·.1)
           deleted := s.instances.map (·.component) ++ destroy none }
  | .all s =>
    ((configureInstances classes s.aliases s.definitions s.instances
        { s.building with components := self :: s.instances.map (·.component) }).answer
      (evaluate (Config.getComponentByMapping classes s.aliases s.definitions) depth)).map
        fun (failed, b) =>
          { created := b.created.map (·.1)
            deleted := if failed then deleteComponents b.components ++ destroy none
              else destroy (some b.components) }

variable {classes : ComponentClasses}

/-- Where the first loop stops, in terms of the definitions before. -/
inductive Gathers (classes : ComponentClasses) (entries : List (String × YamlValue))
    (s : TopLevel) : Gathering → Prop
  | all {s' : TopLevel} (gathers : gatherDefinitions classes entries s = .ok s') :
      Gathers classes entries s (.all s')
  | notMapping {s' : TopLevel} (before : List (String × YamlValue)) (e : String × YamlValue)
      (after : List (String × YamlValue)) (split : entries = before ++ e :: after)
      (other : e.2.definition = none) (gathers : gatherDefinitions classes before s = .ok s') :
      Gathers classes entries s (.notMapping s')
  | rejected {s' : TopLevel} (before : List (String × YamlValue)) (e : String × YamlValue)
      (after : List (String × YamlValue)) (split : entries = before ++ e :: after)
      (gathers : gatherDefinitions classes before s = .ok s') :
      Gathers classes entries s (.rejected s')

theorem Gathers.cons {e : String × YamlValue} {entries : List (String × YamlValue)}
    {s s' : TopLevel} (first : configureEntry classes s e = .ok s') {ends : Gathering}
    (rest : Gathers classes entries s' ends) : Gathers classes (e :: entries) s ends := by
  have step : ∀ more, gatherDefinitions classes (e :: more) s = gatherDefinitions classes more s' :=
    fun more => by rw [gatherDefinitions, first]
  cases rest with
  | all gathers => exact .all ((step _).trans gathers)
  | notMapping before other after split isOther gathers =>
    exact .notMapping (e :: before) other after (congrArg _ split) isOther
      ((step _).trans gathers)
  | rejected before other after split gathers =>
    exact .rejected (e :: before) other after (congrArg _ split) ((step _).trans gathers)

theorem gather_gathers (entries : List (String × YamlValue)) (s : TopLevel) :
    Gathers classes entries s (gather classes entries s) := by
  induction entries generalizing s with
  | nil => exact .all rfl
  | cons e entries ih =>
    obtain ⟨name, value⟩ := e
    cases value with
    | string text location anchor => exact .notMapping [] _ entries rfl rfl rfl
    | aliasOf target location => exact .notMapping [] _ entries rfl rfl rfl
    | array elements location anchor => exact .notMapping [] _ entries rfl rfl rfl
    | mapping config location anchor =>
      unfold gather
      dsimp only
      rcases made : newComponentDefinition classes s config name anchor location with _ | s'
      · exact .rejected [] _ entries rfl rfl
      · have first : configureEntry classes s (name, .mapping config location anchor) = .ok s' :=
          made
        exact Gathers.cons first (ih s')

/-- What is not a mapping stops it. -/
theorem gather_of_notMapping {before after : List (String × YamlValue)} {e : String × YamlValue}
    {s s' : TopLevel} (other : e.2.definition = none)
    (gathers : gatherDefinitions classes before s = .ok s') :
    gather classes (before ++ e :: after) s = .notMapping s' := by
  induction before generalizing s with
  | nil =>
    obtain rfl := Except.ok.inj gathers
    obtain ⟨name, value⟩ := e
    cases value with
    | string text location anchor => rfl
    | aliasOf target location => rfl
    | array elements location anchor => rfl
    | mapping config location anchor => cases other
  | cons first before ih =>
    obtain ⟨name, value⟩ := first
    rw [gatherDefinitions, configureEntry] at gathers
    cases value with
    | string text location anchor => cases gathers
    | aliasOf target location => cases gathers
    | array elements location anchor => cases gathers
    | mapping config location anchor =>
      rw [List.cons_append, gather]
      dsimp only at gathers ⊢
      rcases made : newComponentDefinition classes s config name anchor location with _ | between
      · rw [made] at gathers
        cases gathers
      · rw [made] at gathers
        exact ih gathers

end Engine

end Sinuca3.Source
