import Sinuca3.Source.Utils.Map

/-!
# YAML values

`YamlValue` of `yaml/yaml_parser.hpp`. A mapping is the log of the insertions into its
`Map`: the tables of the texts' octets hold it, so `Mapping.get` and `Mapping.entries`
are what `Get` and a loop over `Next` give.
-/
namespace Sinuca3.Source
open Lib

structure YamlLocation where
  file : String
  line : Nat
  column : Nat
  deriving DecidableEq

namespace YamlLocation

/-- As `%s:%lu:%lu` prints it. -/
def printed (l : YamlLocation) : String :=
  l.file ++ ":" ++ toString l.line ++ ":" ++ toString l.column

end YamlLocation

/-- The union, its tag, the location and the anchor; an alias has none. -/
inductive YamlValue where
  | string (text : String) (location : YamlLocation) (anchor : Option String)
  | aliasOf (name : String) (location : YamlLocation)
  | array (elements : List YamlValue) (location : YamlLocation) (anchor : Option String)
  | mapping (entries : List (String × YamlValue)) (location : YamlLocation)
      (anchor : Option String)

namespace YamlValue

def location : YamlValue → YamlLocation
  | .string _ location _ => location
  | .aliasOf _ location => location
  | .array _ location _ => location
  | .mapping _ location _ => location

def typeAsString : YamlValue → String
  | .string _ _ _ => "string"
  | .aliasOf _ _ => "alias"
  | .array _ _ _ => "array"
  | .mapping _ _ _ => "mapping"

end YamlValue

abbrev Mapping := List (String × YamlValue)

/-- The octets of a text without a terminator in it, as libyaml writes it. -/
def octets (text : String) : CString := text.toUTF8.data.toList.map UInt8.toBitVec

theorem octets_injective : Function.Injective octets := by
  intro s t same
  have data := List.map_injective_iff.mpr (fun _ _ h => UInt8.toBitVec_inj.mp h) same
  exact String.toByteArray_inj.mp (ByteArray.ext (Array.toList_inj.mp data))

namespace Mapping

def insert (m : Mapping) (key : String) (value : YamlValue) : Mapping := m ++ [(key, value)]

def get (m : Mapping) (key : String) : Option YamlValue := m.lookup key

/-- The row of a key. -/
def row (key : String) : Nat := Map.hash (octets key)

theorem row_lt (key : String) : row key < Map.hashM := Map.hash_lt _

/-- What a loop over the map visits. -/
def entries (m : Mapping) : List (String × YamlValue) := arranged row Map.hashM m

theorem entries_perm (m : Mapping) : (entries m).Perm m := arranged_perm row_lt m

theorem mem_entries {m : Mapping} {e : String × YamlValue} : e ∈ entries m ↔ e ∈ m :=
  (entries_perm m).mem_iff

theorem lookup_entries (m : Mapping) (key : String) : (entries m).lookup key = get m key :=
  lookup_arranged row_lt key m

theorem entries_same_key {m : Mapping} {key : String} (same : ∀ e ∈ m, e.1 = key) :
    entries m = m :=
  (arranged_row row (fun e member => congrArg row (same e member)) _).trans
    (if_pos (row_lt key))

theorem entries_singleton (e : String × YamlValue) : entries [e] = [e] :=
  entries_same_key fun _ member => congrArg Prod.fst (List.mem_singleton.mp member)

theorem entries_append {m m' : Mapping} (before : ∀ e ∈ m, ∀ e' ∈ m', row e.1 < row e'.1) :
    entries (m ++ m') = entries m ++ entries m' := arranged_append row before _

theorem foldl_insert (m more : Mapping) :
    more.foldl (fun config entry => insert config entry.1 entry.2) m = m ++ more := by
  induction more generalizing m with
  | nil => exact (List.append_nil m).symm
  | cons entry more ih =>
    rw [List.foldl_cons, ih]
    exact List.append_assoc m [entry] more

/-- The insertions as the table sees them. -/
def log (m : Mapping) : List (CString × YamlValue) := m.map fun e => (octets e.1, e.2)

theorem lookup_log (m : Mapping) (key : String) : (log m).lookup (octets key) = get m key := by
  induction m with
  | nil => rfl
  | cons e m ih =>
    obtain ⟨k, value⟩ := e
    have same : (octets key == octets k) = (key == k) := by
      rw [Bool.eq_iff_iff, beq_iff_eq, beq_iff_eq, octets_injective.eq_iff]
    rw [log, List.map_cons, List.lookup_cons, same, get, List.lookup_cons]
    cases key == k with
    | true => rfl
    | false => exact ih

/-- A table that holds the insertions answers and is visited as the mapping is. -/
theorem holds_log {table : Map YamlValue} {m : Mapping} (h : table.Holds (log m)) :
    (∀ key, table.get (octets key) = get m key) ∧ table.entries = log (entries m) := by
  refine ⟨fun key => by rw [h.get, lookup_log], ?_⟩
  rw [h.entries, entries, log, log, arranged, arranged, List.map_flatMap]
  refine List.flatMap_congr fun i _ => ?_
  rw [List.filter_map]
  rfl

attribute [irreducible] entries

end Mapping
end Sinuca3.Source
