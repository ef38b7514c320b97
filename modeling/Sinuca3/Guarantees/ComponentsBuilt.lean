import Mathlib.Data.List.Nodup
import Sinuca3.Guarantees.ComponentCycles

/-!
# The components built

What a reference builds is created, listed and configured with one definition. An
anchored component is created from its own definition, but configured with the one that
its name has, which is the first of that name.
-/
namespace Sinuca3.Guarantees
open Sinuca3.Source Lib Lib.Interaction

/-- Every component is listed once, configured once, and with its own definition. -/
structure BuiltOnce (b : Building) : Prop where
  components : b.components = Engine.self :: b.created.map (·.1)
  distinct : b.components.Nodup
  configuredOnce : (b.configured.map (·.1)).Perm (b.created.map (·.1))
  ownDefinition : ∀ e ∈ b.configured, e ∈ b.created

/-- From `b` to `b'` the components `added` were built, and those of `named`, which were
there, were configured. -/
structure Grown (named added : List (Linkable × Definition)) (b b' : Building) : Prop where
  created : b'.created = b.created ++ added
  configured : b'.configured.Perm (b.configured ++ (named ++ added))
  components : b'.components = b.components ++ added.map (·.1)
  numbered : added.map (·.1.id) = List.range' (b.created.length + 1) added.length

theorem Grown.of_same {b b' : Building} (created : b'.created = b.created)
    (configured : b'.configured = b.configured) (components : b'.components = b.components) :
    Grown [] [] b b' where
  created := by rw [created, List.append_nil]
  configured := by rw [configured, List.append_nil, List.append_nil]
  components := by rw [components, List.map_nil, List.append_nil]
  numbered := rfl

theorem Grown.trans {b b' b'' : Building} {named named' added added' : List (Linkable × Definition)}
    (first : Grown named added b b') (second : Grown named' added' b' b'') :
    Grown (named ++ named') (added ++ added') b b'' where
  created := by rw [second.created, first.created, List.append_assoc]
  configured := by
    have both := second.configured.trans (first.configured.append_right _)
    refine both.trans ?_
    simp only [List.append_assoc]
    refine List.Perm.append_left _ (List.Perm.append_left _ ?_)
    exact List.perm_append_comm_assoc added named' added'
  components := by rw [second.components, first.components, List.map_append, List.append_assoc]
  numbered := by
    have start : b'.created.length + 1 = b.created.length + 1 + added.length := by
      rw [first.created, List.length_append]
      omega
    rw [List.map_append, first.numbered, second.numbered, start, List.length_append,
      List.range'_append_1]

def Grows (b b' : Building) : Prop := ∃ added, Grown [] added b b'

theorem Grows.of_same {b b' : Building} (created : b'.created = b.created)
    (configured : b'.configured = b.configured) (components : b'.components = b.components) :
    Grows b b' := ⟨[], .of_same created configured components⟩

theorem Grows.trans {b b' b'' : Building} (h : Grows b b') (h' : Grows b' b'') : Grows b b'' := by
  obtain ⟨added, first⟩ := h
  obtain ⟨added', second⟩ := h'
  exact ⟨added ++ added', first.trans second⟩

section References

variable {classes : ComponentClasses} {aliases : List (String × Linkable)}
  {definitions : List (String × Definition)} {d : Definition} {b : Building}

/-- What every call of `GetComponentByMapping` does to the building. -/
abbrev CallGrows (a : Definition × Building) (result : Option Linkable × Building) : Prop :=
  Grows a.2 result.2

theorem getComponentFromYaml_grows {value : YamlValue} {result : Option Linkable × Building}
    (h : Computes CallGrows (Config.getComponentFromYaml aliases definitions value b) result) :
    Grows b result.2 := by
  rcases getComponentFromYaml_eq value b with ⟨_, _, returns⟩ | ⟨_, _, calls⟩
  · rw [returns] at h
    rw [h.of_ret]
    exact .of_same rfl rfl rfl
  · rw [calls] at h
    obtain ⟨answer, grows, h⟩ := h.of_call
    rw [h.of_ret]
    exact grows

theorem componentReference_grows {r : Reference} {result : (Bool × Option Linkable) × Building}
    (h : Computes CallGrows (Config.componentReference aliases definitions d r b) result) :
    Grows b result.2 := by
  rcases componentReference_eq d r b with ⟨_, _, returns⟩ | ⟨_, _, _, _, resolves⟩
  · rw [returns] at h
    rw [h.of_ret]
    exact .of_same rfl rfl rfl
  · rw [resolves] at h
    obtain ⟨found, first, rest⟩ := h.of_bind
    rw [rest.of_ret]
    exact getComponentFromYaml_grows first

theorem resolve_grows {program : ConfigureProgram} : ∀ {b : Building} {result : Bool × Building},
    Computes CallGrows (Config.resolve aliases definitions d program b) result →
      Grows b result.2 := by
  induction program with
  | ret failed =>
    intro b result h
    rw [h.of_ret]
    exact .of_same rfl rfl rfl
  | call r next ih =>
    intro b result h
    rw [Config.resolve] at h
    obtain ⟨answer, first, rest⟩ := h.of_bind
    exact (componentReference_grows first).trans (ih answer.1 rest)

/-- A component created with a definition and then configured with it. -/
theorem getComponentByMapping_grows {a : Definition × Building}
    {result : Option Linkable × Building}
    (h : Computes CallGrows (Config.getComponentByMapping classes aliases definitions a) result) :
    CallGrows a result := by
  obtain ⟨d, b⟩ := a
  rw [Config.getComponentByMapping] at h
  cases own : d.clazz with
  | error lines =>
    simp only [own] at h
    rw [h.of_ret]
    exact .of_same rfl rfl rfl
  | ok found =>
    obtain ⟨clazz, location⟩ := found
    simp only [own] at h
    cases created : classes clazz with
    | none =>
      simp only [created] at h
      rw [h.of_ret]
      exact .of_same rfl rfl rfl
    | some program =>
      simp only [created] at h
      obtain ⟨result', configured, rest⟩ := h.of_bind
      rw [rest.of_ret]
      simp only [Config.configure, Building.fresh, created] at configured
      refine Grows.trans ?_ (resolve_grows configured)
      exact ⟨[(b.fresh clazz, d)], rfl, .refl _, rfl, rfl⟩

end References

section Instances

/-- The anchored components with the definitions their names have. -/
def namedDefinitions (definitions : List (String × Definition))
    (instances : List InstanceWithDefinition) : List (Linkable × Definition) :=
  instances.filterMap fun i => (definitions.lookup i.definition).map fun d => (i.component, d)

variable {classes : ComponentClasses} {aliases : List (String × Linkable)}
  {definitions : List (String × Definition)}

theorem configure_grown {component : Linkable} {d : Definition} {b : Building}
    {result : Bool × Building}
    (h : Computes CallGrows (Config.configure classes aliases definitions component d b) result) :
    ∃ added, Grown [(component, d)] added b result.2 := by
  have passed : Grown [(component, d)] [] b
      { b with configured := b.configured ++ [(component, d)] } :=
    ⟨(List.append_nil _).symm, .refl _, (List.append_nil _).symm, rfl⟩
  rw [Config.configure] at h
  split at h
  · rw [h.of_ret]
    exact ⟨[], passed⟩
  · obtain ⟨added, grown⟩ := resolve_grows h
    exact ⟨added, passed.trans grown⟩

theorem configureInstances_grown {instances : List InstanceWithDefinition} :
    ∀ {b b' : Building}, Computes CallGrows
      (Engine.configureInstances classes aliases definitions instances b) (false, b') →
      ∃ added, Grown (namedDefinitions definitions instances) added b b' := by
  induction instances with
  | nil =>
    intro b b' h
    obtain rfl := (Prod.mk.inj h.of_ret).2
    exact ⟨[], .of_same rfl rfl rfl⟩
  | cons i instances ih =>
    intro b b' h
    rw [Engine.configureInstances] at h
    cases found : definitions.lookup i.definition with
    | none =>
      simp only [found] at h
      cases h.of_ret
    | some d =>
      simp only [found] at h
      obtain ⟨⟨failed, between⟩, first, rest⟩ := h.of_bind
      cases failed with
      | true => cases rest.of_ret
      | false =>
        obtain ⟨added, grown⟩ := configure_grown first
        obtain ⟨added', grown'⟩ := ih rest
        have named : namedDefinitions definitions (i :: instances) =
            (i.component, d) :: namedDefinitions definitions instances := by
          simp only [namedDefinitions, List.filterMap_cons, found, Option.map_some]
        exact ⟨added ++ added', named ▸ grown.trans grown'⟩

end Instances

section Configuration

variable {classes : ComponentClasses} {depth : Nat} {config : Mapping} {b : Building}

/-- What a successful `Configure` leaves: `made` are the anchored components. -/
structure Configured (config : Mapping) (made : List (String × Linkable × Definition))
    (added : List (Linkable × Definition)) (b : Building) : Prop where
  isDefinition : ∀ e ∈ config, e.2.definition.isSome
  anchored : (made.map fun m => (m.1, m.2.2)).Perm
    (config.filterMap fun e => e.2.anchored.map fun d => (e.1, d))
  components : b.components = Engine.self :: b.created.map (·.1)
  created : b.created = made.map (·.2) ++ added
  configured : b.configured.Perm
    ((made.filterMap fun m => (definitionAt config m.1).map fun d => (m.2.1, d)) ++ added)
  numbered : b.created.map (·.1.id) = List.range' 1 b.created.length

theorem configure_configured (built : Engine.configure classes depth config = some (false, b)) :
    ∃ made added, Configured config made added b := by
  rw [Engine.configure] at built
  cases gathered : Engine.gatherDefinitions classes (Mapping.entries config)
      { aliases := [("ENGINE", Engine.self)] } with
  | error lines =>
    simp only [gathered] at built
    cases built
  | ok s =>
    simp only [gathered] at built
    obtain ⟨made, gathers⟩ := Engine.gatherDefinitions_gathers gathered
    have calls : ∀ a result, evaluate (Config.getComponentByMapping classes s.aliases
        s.definitions) depth a = some result → CallGrows a result :=
      evaluate_induction _ (fun _ _ => getComponentByMapping_grows) depth
    obtain ⟨added, grown⟩ := configureInstances_grown (computes_of_answer calls built)
    have named : namedDefinitions s.definitions s.instances =
        made.filterMap fun m => (definitionAt config m.1).map fun d => (m.2.1, d) := by
      rw [gathers.instances, gathers.definitions]
      simp only [namedDefinitions, List.nil_append, List.filterMap_map, Function.comp_def,
        lookup_gathered gathers.isDefinition, Mapping.lookup_entries, definitionAt]
    refine ⟨made, added, ?_, ?_, ?_, ?_, ?_, ?_⟩
    · exact fun e member => gathers.isDefinition e (Mapping.mem_entries.mpr member)
    · rw [gathers.anchored]
      exact (Mapping.entries_perm config).filterMap _
    · rw [grown.components, grown.created, gathers.instances, gathers.building]
      simp
    · rw [grown.created, gathers.building]
      rfl
    · rw [← named]
      have configured := grown.configured
      rw [gathers.building] at configured
      exact configured
    · have start : s.building.created.length + 1 = 1 + made.length := by
        rw [gathers.building, List.length_append, List.length_map]
        change 0 + made.length + 1 = 1 + made.length
        omega
      rw [grown.created, List.map_append, grown.numbered, start, gathers.building]
      simp only [List.nil_append, List.map_map, Function.comp_def, gathers.numbered,
        List.length_append, List.length_map, List.length_nil, Nat.zero_add]
      exact List.range'_append_1

variable {made : List (String × Linkable × Definition)} {added : List (Linkable × Definition)}

theorem Configured.distinct (h : Configured config made added b) : b.components.Nodup := by
  have ids : b.components.map (·.id) = List.range' 0 (b.created.length + 1) := by
    rw [h.components, List.map_cons, List.map_map, List.range'_succ]
    exact congrArg (List.cons 0) h.numbered
  exact List.Nodup.of_map _ (ids ▸ List.nodup_range')

/-- A component was created with one definition. -/
theorem Configured.definition_unique (h : Configured config made added b) {c : Linkable}
    {d d' : Definition} (first : (c, d) ∈ b.created) (second : (c, d') ∈ b.created) : d = d' := by
  have distinct := h.distinct
  rw [h.components] at distinct
  have same := List.inj_on_of_nodup_map distinct.of_cons first second rfl
  exact (Prod.mk.inj same).2

theorem Configured.defined (h : Configured config made added b) {name : String}
    {value : YamlValue} (member : (name, value) ∈ config) :
    ∃ d, definitionAt config name = some d := by
  cases got : Mapping.get config name with
  | none => simpa using List.lookup_eq_none_iff.mp got _ member
  | some first =>
    obtain ⟨d, isDefinition⟩ :=
      Option.isSome_iff_exists.mp (h.isDefinition _ (mem_of_lookup got))
    exact ⟨d, by rw [definitionAt, got]; exact isDefinition⟩

theorem Configured.mem_made (h : Configured config made added b) {name : String}
    {d : Definition} :
    (∃ c, (name, c, d) ∈ made) ↔ ∃ value, (name, value) ∈ config ∧ value.anchored = some d := by
  have both := h.anchored.mem_iff (a := (name, d))
  simp only [List.mem_map, List.mem_filterMap, Option.map_eq_some_iff, Prod.exists,
    Prod.mk.injEq] at both
  constructor
  · rintro ⟨c, inMade⟩
    obtain ⟨_, value, member, _, anchored, rfl, rfl⟩ := both.mp ⟨name, c, d, inMade, rfl, rfl⟩
    exact ⟨value, member, anchored⟩
  · rintro ⟨value, member, anchored⟩
    obtain ⟨_, c, _, inMade, rfl, rfl⟩ := both.mpr ⟨name, value, member, d, anchored, rfl, rfl⟩
    exact ⟨c, inMade⟩

/-- A component is configured with its own definition unless that is anchored and not
the first of its name. -/
theorem components_built_once (classes : ComponentClasses) (depth : Nat) (config : Mapping)
    (b : Building) (built : Engine.configure classes depth config = some (false, b)) :
    BuiltOnce b ↔ ∀ name value d, (name, value) ∈ config → value.anchored = some d →
      definitionAt config name = some d := by
  obtain ⟨made, added, h⟩ := configure_configured built
  constructor
  · intro once name value d member anchored
    obtain ⟨c, inMade⟩ := h.mem_made.mpr ⟨value, member, anchored⟩
    obtain ⟨d', defined⟩ := h.defined member
    have configured : (c, d') ∈ b.configured := h.configured.mem_iff.mpr
      (List.mem_append_left _ (List.mem_filterMap.mpr ⟨_, inMade, by rw [defined]; rfl⟩))
    have created : (c, d) ∈ b.created :=
      h.created ▸ List.mem_append_left _ (List.mem_map.mpr ⟨_, inMade, rfl⟩)
    rw [h.definition_unique created (once.ownDefinition _ configured), defined]
  · intro own
    have named : made.filterMap (fun m => (definitionAt config m.1).map fun d => (m.2.1, d)) =
        made.map (·.2) := by
      refine List.filterMap_eq_map_iff_forall_eq_some.mpr fun m inMade => ?_
      obtain ⟨name, c, d⟩ := m
      obtain ⟨value, member, anchored⟩ := h.mem_made.mp ⟨c, inMade⟩
      rw [own name value d member anchored]
      rfl
    have configured : b.configured.Perm b.created := by
      rw [h.created, ← named]
      exact h.configured
    exact ⟨h.components, h.distinct, configured.map _, fun e => configured.mem_iff.mp⟩

end Configuration

/-- The component with the number `n`. -/
def predictorAt (n : Nat) : Linkable := ⟨n, "HardwiredPredictor"⟩

/-- `predictors` builds the two anchored ones and, with the first, its own and a second of
the last. -/
theorem components_built_once_of_four : ∃ b,
    Engine.configure predictorClasses 2 predictors = some (false, b) ∧
      b.components =
        [Engine.self, predictorAt 1, predictorAt 2, predictorAt 3, predictorAt 4] ∧
      b.configured.map (·.1) = [predictorAt 1, predictorAt 3, predictorAt 4, predictorAt 2] ∧
      BuiltOnce b := by
  have visited : Mapping.entries predictors = predictors := by
    rw [predictors, ← List.singleton_append, Mapping.entries_append, Mapping.entries_singleton,
      Mapping.entries_singleton]
    intro e first e' second
    obtain rfl := List.mem_singleton.mp first
    obtain rfl := List.mem_singleton.mp second
    change Mapping.row "front" < Mapping.row "back"
    decide
  have built : (Engine.configure predictorClasses 2 predictors).map (fun result =>
        (result.1, result.2.components, result.2.configured.map (·.1))) =
      some (false, [Engine.self, predictorAt 1, predictorAt 2, predictorAt 3, predictorAt 4],
        [predictorAt 1, predictorAt 3, predictorAt 4, predictorAt 2]) := by
    rw [Engine.configure, visited]
    decide +kernel
  obtain ⟨⟨failed, b⟩, returns, result⟩ := Option.map_eq_some_iff.mp built
  obtain ⟨rfl, components, configured⟩ : failed = false ∧
      b.components = [Engine.self, predictorAt 1, predictorAt 2, predictorAt 3, predictorAt 4] ∧
      b.configured.map (·.1) = [predictorAt 1, predictorAt 3, predictorAt 4, predictorAt 2] := by
    simpa only [Prod.mk.injEq] using result
  refine ⟨b, returns, components, configured,
    (components_built_once predictorClasses 2 predictors b returns).mpr ?_⟩
  intro name value d member anchored
  rcases List.mem_cons.mp member with same | member
  · obtain ⟨rfl, rfl⟩ := Prod.mk.inj same
    exact anchored
  · obtain ⟨rfl, rfl⟩ := Prod.mk.inj (List.mem_singleton.mp member)
    exact anchored

/-- Two anchored definitions of one name. -/
def predictorTwice : Mapping :=
  [predictorEntry "front" none, predictorEntry "front" (some (named "front"))]

/-- The second component is configured with the first definition. -/
theorem second_definition_ignored : ∃ b,
    Engine.configure predictorClasses 0 predictorTwice = some (false, b) ∧
    b.created = [(predictorAt 1, predictorDefinition none),
      (predictorAt 2, predictorDefinition (some (named "front")))] ∧
    b.configured = [(predictorAt 1, predictorDefinition none),
      (predictorAt 2, predictorDefinition none)] ∧
    ¬ BuiltOnce b := by
  have visited : Mapping.entries predictorTwice = predictorTwice := by
    refine @Mapping.entries_same_key predictorTwice "front" fun e member => ?_
    simp only [predictorTwice, predictorEntry, List.mem_cons, List.not_mem_nil, or_false] at member
    rcases member with rfl | rfl
    · rfl
    · rfl
  refine ⟨⟨[Engine.self, predictorAt 1, predictorAt 2], _, _, []⟩, ?_, rfl, rfl, fun once => ?_⟩
  · rw [Engine.configure, visited]
    rfl
  · have own := once.ownDefinition (predictorAt 2, predictorDefinition none) (.tail _ (.head _))
    rcases List.mem_cons.mp own with same | own
    · cases same
    · have same := congrArg (fun e : Linkable × Definition => e.2.config.length)
        (List.mem_singleton.mp own)
      cases same

end Sinuca3.Guarantees
