import Sinuca3.Lib.Recursion
import Sinuca3.Source.Yaml.YamlEvents

/-!
# YAML parser

The include entries of `yaml/yaml_parser.cpp`. What `ParseFile` returns for each path,
which libyaml and the file system decide, is given; the lines an error prints are part
of the result. A value is never freed here: the source frees what an included file's
own parser allocated when `IncludeString` returns.
-/
namespace Sinuca3.Source
open Lib.Interaction

/-- The mapping that a file is. -/
structure YamlFile where
  mapping : Mapping
  location : YamlLocation

abbrev YamlResult (α : Type) : Type := Except (List String) α

/-- What `ParseFile` returns for a path; `none` is that it never does. -/
abbrev YamlFiles : Type := String → Option (YamlResult YamlFile)

/-- What `ParseFile` makes of the events of the files in loops of at most `turns` turns. The
lines that it prints for a file it fails on are given. -/
def YamlFiles.ofStreams (unset : Unset) (opened : String → Option YamlStream)
    (printed : String → List String) (turns : Nat) : YamlFiles := fun configFile =>
  match Parser.parseFile unset turns configFile (opened configFile) with
  | .running => none
  | .failed => some (.error (printed configFile))
  | .done (.mapping mapping location _) _ => some (.ok { mapping, location })
  | .done _ _ => none

namespace Parser

inductive Call where
  | parseFile (configFile : String)
  | processIncludeEntries (config : YamlFile)

/-- A program that leaves parsing a file and the include entries of an included file to
calls. -/
abbrev Including (α : Type) : Type := Calling Call (YamlResult YamlFile) (YamlResult α)

def includeString (config : Mapping) (string : String) : Including Mapping :=
  .call (.parseFile string) fun
    | .error lines => .ret (.error lines)
    | .ok newFile => .call (.processIncludeEntries newFile) fun
      | .error lines => .ret (.error lines)
      | .ok newFile => .ret (.ok ((Mapping.entries newFile.mapping).foldl
          (fun config entry => Mapping.insert config entry.1 entry.2) config))

def includeArray (location : YamlLocation) : Mapping → List YamlValue → Including Mapping
  | config, [] => .ret (.ok config)
  | config, .string text _ _ :: array =>
    (includeString config text).bind fun
      | .error lines => .ret (.error lines)
      | .ok config => includeArray location config array
  | _, value :: _ => .ret (.error [location.printed ++
      ": include array members should all be string. Got " ++ value.typeAsString ++ " at " ++
      value.location.printed ++ "."])

/-- A failed include adds a line with the place of the file's mapping. -/
def included (config : YamlFile) : YamlResult Mapping → Including YamlFile
  | .error lines => .ret (.error (lines ++ [config.location.printed ++ "."]))
  | .ok mapping => .ret (.ok { config with mapping })

def processIncludeEntries (config : YamlFile) : Including YamlFile :=
  match Mapping.get config.mapping "include" with
  | none => .ret (.ok config)
  | some (.string text _ _) => (includeString config.mapping text).bind (included config)
  | some (.array elements _ _) =>
    (includeArray config.location config.mapping elements).bind (included config)
  | some _ => .ret (.error [config.location.printed ++
      ": include should be a string or an array of strings."])

def fileWithIncludes (configFile : String) : Including YamlFile :=
  .call (.parseFile configFile) fun
    | .error lines => .ret (.error lines)
    | .ok config => .call (.processIncludeEntries config) .ret

variable (files : YamlFiles)

/-- A file whose parse never returns is one whose parse waits for itself. -/
def perform : Call → Including YamlFile
  | .parseFile configFile =>
    match files configFile with
    | some result => .ret result
    | none => .call (.parseFile configFile) .ret
  | .processIncludeEntries config => processIncludeEntries config

/-- At most `depth` calls are open at a time; `none` is not having returned. -/
def parseFileWithIncludes (depth : Nat) (configFile : String) : Option (YamlResult YamlFile) :=
  (fileWithIncludes configFile).answer (evaluate (perform files) depth)

end Parser

end Sinuca3.Source
