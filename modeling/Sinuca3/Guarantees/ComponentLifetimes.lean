import Sinuca3.Guarantees.ComponentsBuilt
import Sinuca3.Source.Engine.Destruction

/-!
# Lifetimes of the components

Whether `Configure` succeeds or fails, each component is deleted once. Only a top-level
parameter that is not a mapping makes it return without deleting what was created.
-/
namespace Sinuca3.Guarantees
open Sinuca3.Source Lib Lib.Interaction

variable {classes : ComponentClasses}

/-- The vector of components is the engine and all that was created. -/
structure Owned (b : Building) : Prop where
  components : b.components = Engine.self :: b.created.map (·.1)
  numbered : b.created.map (·.1.id) = List.range' 1 b.created.length

/-- The pointers differ, and the engine has one of its own. -/
theorem distinct_of_numbered {created : List (Linkable × Definition)}
    (numbered : created.map (·.1.id) = List.range' 1 created.length) :
    (created.map (·.1)).Nodup ∧ Engine.self ∉ created.map (·.1) := by
  have ids : (Engine.self :: created.map (·.1)).map (·.id) =
      List.range' 0 (created.length + 1) := by
    rw [List.map_cons, List.map_map, List.range'_succ]
    exact congrArg (List.cons 0) numbered
  have all : (Engine.self :: created.map (·.1)).Nodup :=
    List.Nodup.of_map _ (ids ▸ List.nodup_range')
  exact (List.nodup_cons.mp all).symm

theorem Owned.grown {named added : List (Linkable × Definition)} {b b' : Building}
    (owned : Owned b) (grown : Grown named added b b') : Owned b' where
  components := by
    rw [grown.components, owned.components, grown.created, List.map_append, List.cons_append]
  numbered := by
    have start : b.created.length + 1 = 1 + b.created.length := Nat.add_comm ..
    rw [grown.created, List.map_append, owned.numbered, grown.numbered, start,
      List.length_append, List.range'_append_1]

/-- The second loop keeps what it creates among the components, also where it fails. -/
theorem configureInstances_owned {aliases : List (String × Linkable)}
    {definitions : List (String × Definition)} {instances : List InstanceWithDefinition} :
    ∀ {b : Building} {result : Bool × Building}, Owned b → Computes CallGrows
      (Engine.configureInstances classes aliases definitions instances b) result →
      Owned result.2 := by
  induction instances with
  | nil =>
    intro b result owned h
    rw [h.of_ret]
    exact owned
  | cons i instances ih =>
    intro b result owned h
    rw [Engine.configureInstances] at h
    cases found : definitions.lookup i.definition with
    | none =>
      simp only [found] at h
      rw [h.of_ret]
      exact owned
    | some d =>
      simp only [found] at h
      obtain ⟨⟨failed, between⟩, first, rest⟩ := h.of_bind
      obtain ⟨added, grown⟩ := configure_grown first
      cases failed with
      | true =>
        rw [rest.of_ret]
        exact owned.grown grown
      | false => exact ih (owned.grown grown) rest

/-- The first loop creates a component for each anchored definition. -/
structure CreatesAnchored (entries : List (String × YamlValue)) (s : TopLevel) : Prop where
  instances : s.instances.map (·.component) = s.building.created.map (·.1)
  numbered : s.building.created.map (·.1.id) = List.range' 1 s.building.created.length
  nonempty : s.building.created ≠ [] ↔ ∃ e ∈ entries, e.2.anchored.isSome

theorem gatherDefinitions_creates {entries : List (String × YamlValue)} {s : TopLevel}
    (gathers : Engine.gatherDefinitions classes entries Engine.started = .ok s) :
    CreatesAnchored entries s := by
  obtain ⟨made, gathered⟩ := Engine.gatherDefinitions_gathers gathers
  have created : s.building.created = made.map (·.2) := by
    rw [gathered.building]
    rfl
  refine ⟨?_, ?_, ?_⟩
  · rw [gathered.instances, created, List.map_map]
    exact List.map_map
  · rw [created, List.map_map, List.length_map]
    exact gathered.numbered
  · have anchored := gathered.anchored
    rw [created, ne_eq, List.map_eq_nil_iff, ← List.map_eq_nil_iff (f := fun m => (m.1, m.2.2)),
      anchored, List.filterMap_eq_nil_iff]
    push Not
    exact exists_congr fun e => and_congr_right fun _ => by
      cases e.2.anchored <;> simp

/-- How `main` ends: with all deleted that was created, or with nothing deleted, where the
first loop stops at a parameter that is not a mapping. -/
inductive Ends (classes : ComponentClasses) (config : Mapping) : Lifetimes → Prop
  | deletes (created : List (Linkable × Definition))
      (numbered : created.map (·.1.id) = List.range' 1 created.length)
      (goesOn : ∀ s,
        Engine.gather classes (Mapping.entries config) Engine.started ≠ .notMapping s) :
      Ends classes config ⟨created.map (·.1), created.map (·.1)⟩
  | leaves (before after : List (String × YamlValue)) (e : String × YamlValue) (s : TopLevel)
      (split : Mapping.entries config = before ++ e :: after) (other : e.2.definition = none)
      (gathers : Engine.gatherDefinitions classes before Engine.started = .ok s) :
      Ends classes config ⟨s.building.created.map (·.1), []⟩

theorem lifetimes_ends {depth : Nat} {config : Mapping} {l : Lifetimes}
    (ends : Engine.lifetimes classes depth config = some l) : Ends classes config l := by
  have gathering : Engine.Gathers classes (Mapping.entries config) Engine.started
      (Engine.gather classes (Mapping.entries config) Engine.started) :=
    Engine.gather_gathers (Mapping.entries config) Engine.started
  unfold Engine.lifetimes at ends
  rcases ended : Engine.gather classes (Mapping.entries config) Engine.started with s | s | s
  · rw [ended] at ends gathering
    cases gathering with
    | all gathers =>
      have creates := gatherDefinitions_creates gathers
      have calls : ∀ a result, evaluate (Config.getComponentByMapping classes s.aliases
          s.definitions) depth a = some result → CallGrows a result :=
        evaluate_induction _ (fun _ _ => getComponentByMapping_grows) depth
      obtain ⟨⟨failed, b⟩, answered, rfl⟩ := Option.map_eq_some_iff.mp ends
      have owned : Owned b := by
        refine configureInstances_owned ?_ (computes_of_answer calls answered)
        exact ⟨congrArg (Engine.self :: ·) creates.instances, creates.numbered⟩
      have all : Engine.deleteComponents b.components = b.created.map (·.1) := by
        rw [Engine.deleteComponents, owned.components]
        rfl
      have same : (if failed = true then
          Engine.deleteComponents b.components ++ Engine.destroy none
          else Engine.destroy (some b.components)) = b.created.map (·.1) := by
        cases failed with
        | true => exact (List.append_nil _).trans all
        | false => exact all
      dsimp only
      rw [same]
      refine .deletes b.created owned.numbered fun s' stops => ?_
      rw [ended] at stops
      cases stops
  · rw [ended] at ends gathering
    cases gathering with
    | notMapping before e after split other gathers =>
      obtain rfl := Option.some.inj ends
      exact .leaves before after e s split other gathers
  · rw [ended] at ends gathering
    cases gathering with
    | rejected before e after split gathers =>
      have creates := gatherDefinitions_creates gathers
      obtain rfl := Option.some.inj ends
      rw [creates.instances, Engine.destroy, List.append_nil]
      refine .deletes s.building.created creates.numbered fun s' stops => ?_
      rw [ended] at stops
      cases stops

/-- What becomes of the components until `main` is over: each is deleted once and the engine
never, unless a top-level parameter that is not a mapping comes after an anchored definition.
Then none is deleted. -/
theorem components_deleted_once (classes : ComponentClasses) (depth : Nat) (config : Mapping)
    (l : Lifetimes) (ends : Engine.lifetimes classes depth config = some l) :
    l.created.Nodup ∧ Engine.self ∉ l.created ∧
      (l.deleted = l.created ∨ l.deleted = []) ∧
      (l.deleted ≠ l.created ↔ ∃ before e after s,
        Mapping.entries config = before ++ e :: after ∧ e.2.definition = none ∧
          Engine.gatherDefinitions classes before Engine.started = .ok s ∧
          ∃ anchored ∈ before, anchored.2.anchored.isSome) := by
  cases lifetimes_ends ends with
  | deletes created numbered goesOn =>
    obtain ⟨distinct, apart⟩ := distinct_of_numbered numbered
    refine ⟨distinct, apart, .inl rfl, fun differ => absurd rfl differ, ?_⟩
    rintro ⟨before, e, after, s, split, other, gathers, _⟩
    refine absurd ?_ (goesOn s)
    rw [split]
    exact Engine.gather_of_notMapping other gathers
  | leaves before after e s split other gathers =>
    have creates := gatherDefinitions_creates gathers
    obtain ⟨distinct, apart⟩ := distinct_of_numbered creates.numbered
    refine ⟨distinct, apart, .inr rfl, fun differ => ?_, ?_⟩
    · refine ⟨before, e, after, s, split, other, gathers, creates.nonempty.mp ?_⟩
      intro none
      rw [none] at differ
      exact differ rfl
    · rintro ⟨before', e', after', s', split', other', gathers', anchored⟩ same
      have one : Engine.gather classes (before ++ e :: after) Engine.started = .notMapping s :=
        Engine.gather_of_notMapping other gathers
      have two : Engine.gather classes (before' ++ e' :: after') Engine.started =
          .notMapping s' :=
        Engine.gather_of_notMapping other' gathers'
      rw [← split] at one
      rw [← split', one] at two
      obtain rfl := Gathering.notMapping.inj two
      exact (gatherDefinitions_creates gathers').nonempty.mpr anchored
        (List.map_eq_nil_iff.mp same.symm)

/-- An anchored definition and, under the same name, a text. -/
def predictorAndText : Mapping :=
  [predictorEntry "front" none, ("front", named "front")]

theorem predictor_is_not_deleted : ∃ l,
    Engine.lifetimes predictorClasses 0 predictorAndText = some l ∧
      l.created = [predictorAt 1] ∧ l.deleted = [] ∧ l.deleted ≠ l.created := by
  have visited : Mapping.entries predictorAndText = predictorAndText := by
    refine @Mapping.entries_same_key predictorAndText "front" fun e member => ?_
    simp only [predictorAndText, predictorEntry, List.mem_cons, List.not_mem_nil,
      or_false] at member
    rcases member with rfl | rfl
    · rfl
    · rfl
  have ends : Engine.lifetimes predictorClasses 0 predictorAndText =
      some ⟨[predictorAt 1], []⟩ := by
    rw [Engine.lifetimes, visited]
    rfl
  refine ⟨_, ends, rfl, rfl, ?_⟩
  apply (components_deleted_once predictorClasses 0 predictorAndText _ ends).2.2.2.mpr
  exact ⟨[predictorEntry "front" none], _, [], _, visited, rfl, rfl, _,
    List.mem_singleton_self _, rfl⟩

end Sinuca3.Guarantees
