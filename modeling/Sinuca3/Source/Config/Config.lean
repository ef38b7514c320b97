import Sinuca3.Source.Yaml.YamlParser

/-!
# Config

Component references of `config/config.cpp` and `config/config.hpp`. A class is what
its `Configure` does with a mapping: a program that asks for references. Resolving one
may create a component and call its `Configure`, which is the recursive call.
-/
namespace Sinuca3.Source
open Lib.Interaction

structure Definition where
  config : Mapping
  location : YamlLocation

/-- A pointer: a fresh number for each component, and its class. -/
structure Linkable where
  id : Nat
  clazz : String
  deriving DecidableEq

structure InstanceWithDefinition where
  component : Linkable
  definition : String

/-- The arguments of `ComponentReference`. It may be called on a `Fork` of the own
configuration, made along `path`; `accepts` is the `dynamic_cast`. -/
structure Reference where
  path : List String := []
  parameter : String
  required : Bool := false
  accepts : Linkable → Bool := fun _ => true

/-- What `Configure` asks for, and whether it fails. The answers are the return code of
`ComponentReference` and the pointer, which stays `NULL` where nothing is passed. -/
abbrev ConfigureProgram : Type := Prog Reference (fun _ => Bool × Option Linkable) Bool

abbrev ComponentClass : Type := Definition → ConfigureProgram

/-- `CreateComponentByClass`, default and custom classes. -/
abbrev ComponentClasses : Type := String → Option ComponentClass

/-- The vector of components and what was printed. Every component that
`CreateComponentByClass` returns is kept with the definition its class is of, every call
of `Configure` with the definition passed to it. -/
structure Building where
  components : List Linkable := []
  created : List (Linkable × Definition) := []
  configured : List (Linkable × Definition) := []
  printed : List String := []

namespace Building

def print (b : Building) (line : String) : Building := { b with printed := b.printed ++ [line] }

/-- The next pointer; the engine has the number 0. -/
def fresh (b : Building) (clazz : String) : Linkable := ⟨b.created.length + 1, clazz⟩

def create (b : Building) (clazz : String) (definition : Definition) : Building :=
  { b with created := b.created ++ [(b.fresh clazz, definition)] }

def pushBack (b : Building) (component : Linkable) : Building :=
  { b with components := b.components ++ [component] }

end Building

namespace Definition

/-- The class and where it stands. -/
def clazz (d : Definition) : YamlResult (String × YamlLocation) :=
  match Mapping.get d.config "class" with
  | none => .error [d.location.printed ++ " Component class not passed."]
  | some (.string text location _) => .ok (text, location)
  | some value => .error [value.location.printed ++ " Component class is not a string."]

/-- `Fork`, along a path of parameters. -/
def fork (d : Definition) : List String → Option Definition
  | [] => some d
  | parameter :: path =>
    match Mapping.get d.config parameter with
    | some (.mapping entries location _) => fork ⟨entries, location⟩ path
    | _ => none

end Definition

def noSuchClass (clazz : String) (location : YamlLocation) : String :=
  location.printed ++ " Component class " ++ clazz ++ " doesn't exists."

namespace Config

/-- A program whose calls are `GetComponentByMapping`. -/
abbrev Constructing (ρ : Type) : Type :=
  Calling (Definition × Building) (Option Linkable × Building) (ρ × Building)

variable (classes : ComponentClasses) (aliases : List (String × Linkable))
  (definitions : List (String × Definition))

def getComponentByAlias (name : String) (location : YamlLocation) (b : Building) :
    Constructing (Option Linkable) :=
  match aliases.lookup name with
  | none => .ret (none, b.print (location.printed ++ " No such component alias: " ++ name ++ "."))
  | some component => .ret (some component, b)

def getComponentByString (string : String) (location : YamlLocation) (b : Building) :
    Constructing (Option Linkable) :=
  match definitions.lookup string with
  | none =>
    .ret (none, b.print (location.printed ++ " Component does not exists: " ++ string ++ "."))
  | some definition => .call (definition, b) .ret

def getComponentFromYaml (value : YamlValue) (b : Building) : Constructing (Option Linkable) :=
  match value with
  | .string text location _ => getComponentByString definitions text location b
  | .aliasOf name location => getComponentByAlias aliases name location b
  | .mapping entries location _ => .call (⟨entries, location⟩, b) .ret
  | .array _ location _ =>
    .ret (none, b.print (location.printed ++ " Is not a component reference."))

/-- A failed `Fork` fails too. The source does so where the parameter is no mapping; where there
is none it dereferences `NULL`. -/
def componentReference (d : Definition) (r : Reference) (b : Building) :
    Constructing (Bool × Option Linkable) :=
  match d.fork r.path with
  | none => .ret ((true, none), b)
  | some d =>
    match Mapping.get d.config r.parameter with
    | none =>
      if r.required then
        .ret ((true, none), b.print
          (d.location.printed ++ " Required parameter not passed: " ++ r.parameter ++ "."))
      else .ret ((false, none), b)
    | some value =>
      (getComponentFromYaml aliases definitions value b).bind fun (component, b) =>
        let ret := component.filter r.accepts
        .ret ((ret.isNone, ret), b)

/-- `Configure` with its references resolved. -/
def resolve (d : Definition) : ConfigureProgram → Building → Constructing Bool
  | .ret failed, b => .ret (failed, b)
  | .call r next, b =>
    (componentReference aliases definitions d r b).bind fun (answer, b) => resolve d (next answer) b

/-- The component's class is one of `classes`. -/
def configure (component : Linkable) (d : Definition) (b : Building) : Constructing Bool :=
  let b := { b with configured := b.configured ++ [(component, d)] }
  match classes component.clazz with
  | none => .ret (true, b)
  | some clazz => resolve aliases definitions d (clazz d) b

def getComponentByMapping : Definition × Building → Constructing (Option Linkable)
  | (d, b) =>
    match d.clazz with
    | .error lines => .ret (none, { b with printed := b.printed ++ lines })
    | .ok (clazz, location) =>
      match classes clazz with
      | none => .ret (none, b.print (noSuchClass clazz location))
      | some _ =>
        let component := b.fresh clazz
        (configure classes aliases definitions component d
            ((b.create clazz d).pushBack component)).bind fun (failed, b) =>
          .ret (if failed then none else some component, b)

end Config
end Sinuca3.Source
