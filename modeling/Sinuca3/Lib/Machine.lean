import Mathlib.Data.List.Induction

/-!
# Machines with an output log

A machine is a step function that consumes one input and emits a list of
outputs. `run` feeds it a list of inputs and concatenates what it emits, so a
property "over every run" is a property of the pair (final state, log).

The two induction rules below are the only inductions over runs that a
development needs: `run_induction` for an invariant that every step preserves,
and `run_induction_of_meets` for one that only the steps meeting a condition
preserve.
-/
namespace Lib.Machine

variable {σ ι ω : Type} (step : σ → ι → σ × List ω)

/-- State and log after a list of inputs, oldest input first. -/
def run (s : σ) : List ι → σ × List ω
  | [] => (s, [])
  | i :: is =>
    let next := step s i
    let rest := run next.1 is
    (rest.1, next.2 ++ rest.2)

@[simp] theorem run_nil (s : σ) : run step s [] = (s, []) := rfl

theorem run_cons (s : σ) (i : ι) (is : List ι) :
    run step s (i :: is) =
      ((run step (step s i).1 is).1, (step s i).2 ++ (run step (step s i).1 is).2) := rfl

theorem run_append (s : σ) (is js : List ι) :
    run step s (is ++ js) =
      ((run step (run step s is).1 js).1,
        (run step s is).2 ++ (run step (run step s is).1 js).2) := by
  induction is generalizing s with
  | nil => simp
  | cons i is ih => simp [run_cons, ih, List.append_assoc]

/-- One more input at the end of a run: the form in which invariants step. -/
theorem run_concat (s : σ) (is : List ι) (i : ι) :
    run step s (is ++ [i]) =
      ((step (run step s is).1 i).1,
        (run step s is).2 ++ (step (run step s is).1 i).2) := by
  simp [run_append, run_cons]

/-- Every input of the run meets `cond` in the state it is applied to. -/
def Meets (cond : σ → ι → Prop) (s : σ) : List ι → Prop
  | [] => True
  | i :: is => cond s i ∧ Meets cond (step s i).1 is

instance decidableMeets (cond : σ → ι → Prop) [∀ s i, Decidable (cond s i)] (s : σ) :
    (is : List ι) → Decidable (Meets step cond s is)
  | [] => .isTrue trivial
  | i :: is =>
    have := decidableMeets cond (step s i).1 is
    inferInstanceAs (Decidable (cond s i ∧ Meets step cond (step s i).1 is))

theorem meets_append (cond : σ → ι → Prop) (s : σ) (is js : List ι) :
    Meets step cond s (is ++ js) ↔
      Meets step cond s is ∧ Meets step cond (run step s is).1 js := by
  induction is generalizing s with
  | nil => simp [Meets]
  | cons i is ih => simp [Meets, ih, run_cons, and_assoc]

theorem meets_concat (cond : σ → ι → Prop) (s : σ) (is : List ι) (i : ι) :
    Meets step cond s (is ++ [i]) ↔
      Meets step cond s is ∧ cond (run step s is).1 i := by
  simp [meets_append, Meets]

theorem meets_of_forall {cond : ι → Prop} (s : σ) (is : List ι) (all : ∀ i ∈ is, cond i) :
    Meets step (fun _ i => cond i) s is := by
  induction is generalizing s with
  | nil => trivial
  | cons i is ih =>
    exact ⟨all i (List.mem_cons_self ..), ih _ fun j member => all j (List.mem_cons_of_mem i member)⟩

theorem meets_and (cond cond' : σ → ι → Prop) (s : σ) (is : List ι) :
    Meets step (fun s i => cond s i ∧ cond' s i) s is ↔
      Meets step cond s is ∧ Meets step cond' s is := by
  induction is generalizing s with
  | nil => exact ⟨fun _ => ⟨trivial, trivial⟩, fun _ => trivial⟩
  | cons i is ih =>
    simp only [Meets, ih]
    exact and_and_and_comm

theorem Meets.imp {cond cond' : σ → ι → Prop} (weaker : ∀ s i, cond s i → cond' s i) {s : σ}
    {is : List ι} (meets : Meets step cond s is) : Meets step cond' s is := by
  induction is generalizing s with
  | nil => trivial
  | cons i is ih => exact ⟨weaker s i meets.1, ih meets.2⟩

/-- Where an invariant implies the condition, every run meets it. -/
theorem meets_of_invariant (cond : σ → ι → Prop) (inv : σ → Prop)
    (keeps : ∀ t i, inv t → inv (step t i).1) (holds : ∀ t i, inv t → cond t i)
    (s : σ) (start : inv s) (is : List ι) : Meets step cond s is := by
  induction is generalizing s with
  | nil => trivial
  | cons i is ih => exact ⟨holds s i start, ih _ (keeps s i start)⟩

/-- Two conditions that agree as long as the second has been met are met by the same
runs. -/
theorem meets_congr (cond cond' : σ → ι → Prop) (inv : σ → Prop)
    (agree : ∀ t i, inv t → (cond t i ↔ cond' t i))
    (keeps : ∀ t i, inv t → cond' t i → inv (step t i).1) (s : σ) (start : inv s) (is : List ι) :
    Meets step cond s is ↔ Meets step cond' s is := by
  induction is generalizing s with
  | nil => exact Iff.rfl
  | cons i is ih =>
    constructor
    · rintro ⟨here, later⟩
      have here := (agree s i start).mp here
      exact ⟨here, (ih _ (keeps s i start here)).mp later⟩
    · rintro ⟨here, later⟩
      exact ⟨(agree s i start).mpr here, (ih _ (keeps s i start here)).mpr later⟩

/-- Where a step emits only good outputs exactly when its input meets `cond`, a run
emits only good outputs exactly when all its inputs do. -/
theorem meets_iff_of_step (cond : σ → ι → Prop) (inv : σ → Prop) (good : List ω → Prop)
    (nil : good []) (append : ∀ os os', good (os ++ os') ↔ good os ∧ good os')
    (keeps : ∀ t i, inv t → inv (step t i).1)
    (one : ∀ t i, inv t → (good (step t i).2 ↔ cond t i)) (s : σ) (start : inv s) (is : List ι) :
    good (run step s is).2 ↔ Meets step cond s is := by
  induction is generalizing s with
  | nil => exact ⟨fun _ => trivial, fun _ => nil⟩
  | cons i is ih => rw [run_cons, append, one s i start, ih _ (keeps s i start), Meets]

/-- An invariant of state, inputs and log that the empty run satisfies and
every step meeting `cond` preserves holds of every run whose steps meet it. -/
theorem run_induction_of_meets (cond : σ → ι → Prop) {s : σ}
    {P : σ → List ι → List ω → Prop} (start : P s [] [])
    (next : ∀ t is os i, P t is os → cond t i →
      P (step t i).1 (is ++ [i]) (os ++ (step t i).2))
    (is : List ι) (meets : Meets step cond s is) :
    P (run step s is).1 is (run step s is).2 := by
  induction is using List.reverseRecOn with
  | nil => exact start
  | append_singleton is i ih =>
    obtain ⟨before, here⟩ := (meets_concat step cond s is i).mp meets
    rw [run_concat]
    exact next _ _ _ _ (ih before) here

/-- The unconditional rule: what every step preserves holds of every run. -/
theorem run_induction {s : σ} {P : σ → List ι → List ω → Prop} (start : P s [] [])
    (next : ∀ t is os i, P t is os → P (step t i).1 (is ++ [i]) (os ++ (step t i).2))
    (is : List ι) : P (run step s is).1 is (run step s is).2 := by
  induction is using List.reverseRecOn with
  | nil => exact start
  | append_singleton is i ih =>
    rw [run_concat]
    exact next _ _ _ _ ih

/-- The prefixes of a run with one more input. -/
theorem forall_prefix_concat {P : List ι → Prop} (is : List ι) (i : ι) :
    (∀ js, js <+: is ++ [i] → P js) ↔ (∀ js, js <+: is → P js) ∧ P (is ++ [i]) := by
  constructor
  · intro all
    exact ⟨fun js early => all js (early.trans (List.prefix_append is [i])),
      all _ (List.prefix_refl _)⟩
  · rintro ⟨before, last⟩ js early
    rcases List.prefix_concat_iff.mp early with rfl | early
    · exact last
    · exact before js early

/-- Where an invariant that lasts as long as the inputs so far are within bounds makes a
step keep a property exactly when they still are after it, the property holds in every
state reached exactly when the inputs never leave the bounds. -/
theorem reached_iff_within (inv : σ → List ι → Prop) (P : σ → List ω → Prop)
    (within : List ι → Prop) {s : σ} (start : inv s []) (holds : P s []) (nil : within [])
    (keeps : ∀ t is i, inv t is → within is → within (is ++ [i]) → inv (step t i).1 (is ++ [i]))
    (one : ∀ t is os i, inv t is → within is → P t os →
      (P (step t i).1 (os ++ (step t i).2) ↔ within (is ++ [i]))) (is : List ι) :
    (∀ js, js <+: is → P (run step s js).1 (run step s js).2) ↔
      ∀ js, js <+: is → within js := by
  suffices whole : ((∀ js, js <+: is → P (run step s js).1 (run step s js).2) ↔
      ∀ js, js <+: is → within js) ∧
      ((∀ js, js <+: is → within js) → inv (run step s is).1 is) from whole.1
  induction is using List.reverseRecOn with
  | nil =>
    refine ⟨?_, fun _ => start⟩
    simp only [List.prefix_nil, forall_eq]
    exact iff_of_true holds nil
  | append_singleton is i ih =>
    obtain ⟨same, kept⟩ := ih
    rw [forall_prefix_concat, forall_prefix_concat, same, run_concat]
    constructor
    · refine and_congr_right fun before => ?_
      exact one _ _ _ i (kept before) (before is (List.prefix_refl _))
        (same.mpr before is (List.prefix_refl _))
    · rintro ⟨before, last⟩
      exact keeps _ _ i (kept before) (before is (List.prefix_refl _)) last

/-- Where an invariant makes every step keep a property exactly when its input meets
`cond`, the property holds in every state a run reaches exactly when all inputs do. -/
theorem reached_iff_meets (cond : σ → ι → Prop) (inv : σ → List ω → Prop)
    (P : σ → List ω → Prop) {s : σ} (start : inv s []) (nil : P s [])
    (keeps : ∀ t os i, inv t os → inv (step t i).1 (os ++ (step t i).2))
    (one : ∀ t os i, inv t os → P t os → (P (step t i).1 (os ++ (step t i).2) ↔ cond t i))
    (is : List ι) :
    (∀ js, js <+: is → P (run step s js).1 (run step s js).2) ↔ Meets step cond s is := by
  induction is using List.reverseRecOn with
  | nil =>
    refine ⟨fun _ => trivial, fun _ js early => ?_⟩
    rw [List.prefix_nil.mp early]
    exact nil
  | append_singleton is i ih =>
    have holds : inv (run step s is).1 (run step s is).2 :=
      run_induction step (P := fun t _ os => inv t os) start (fun t _ os j => keeps t os j) is
    rw [meets_concat, ← ih, forall_prefix_concat]
    refine and_congr_right fun before => ?_
    rw [run_concat]
    exact one _ _ i holds (before is (List.prefix_refl _))

/-- The rule for a property of the log that no later output mends. -/
theorem log_iff_meets (cond : σ → ι → Prop) (inv : σ → List ω → Prop) (good : List ω → Prop)
    {s : σ} (start : inv s []) (nil : good []) (closed : ∀ os os', good (os ++ os') → good os)
    (keeps : ∀ t os i, inv t os → inv (step t i).1 (os ++ (step t i).2))
    (one : ∀ t os i, inv t os → good os → (good (os ++ (step t i).2) ↔ cond t i)) (is : List ι) :
    good (run step s is).2 ↔ Meets step cond s is := by
  rw [← reached_iff_meets step cond inv (fun _ os => good os) start nil keeps one is]
  constructor
  · rintro whole js ⟨rest, rfl⟩
    rw [run_append] at whole
    exact closed _ _ whole
  · exact fun all => all is (List.prefix_refl is)

/-- A machine seen through a view of its state: inputs the view ignores leave
it and its outputs alone, the others are steps of the viewed machine. Then the
whole run is a run of the viewed machine on the inputs it sees. -/
theorem run_view {σ' ι' ω' : Type} (step' : σ' → ι' → σ' × List ω') (view : σ → σ')
    (input : ι → Option ι') (output : ω → Option ω')
    (seen : ∀ s i i', input i = some i' →
      step' (view s) i' = (view (step s i).1, (step s i).2.filterMap output))
    (ignored : ∀ s i, input i = none →
      view (step s i).1 = view s ∧ (step s i).2.filterMap output = [])
    (s : σ) (is : List ι) :
    run step' (view s) (is.filterMap input) =
      (view (run step s is).1, (run step s is).2.filterMap output) := by
  induction is generalizing s with
  | nil => rfl
  | cons i is ih =>
    rw [run_cons, List.filterMap_append]
    cases sees : input i with
    | none =>
      obtain ⟨same, silent⟩ := ignored s i sees
      rw [List.filterMap_cons_none sees, ← same, ih, silent, List.nil_append]
    | some i' =>
      rw [List.filterMap_cons_some sees, run_cons, seen s i i' sees, ih]

/-- Where each step emits one output, the log is as long as the run. -/
theorem length_run (one : ∀ s i, (step s i).2.length = 1) (s : σ) (is : List ι) :
    (run step s is).2.length = is.length := by
  induction is generalizing s with
  | nil => rfl
  | cons i is ih =>
    rw [run_cons, List.length_append, one, ih, List.length_cons, Nat.add_comm]

/-- And a part of the log is the log of a part of the run. -/
theorem run_split (one : ∀ s i, (step s i).2.length = 1) (s : σ) (is : List ι)
    {before after : List ω} (whole : (run step s is).2 = before ++ after) :
    ∃ is' js, is = is' ++ js ∧ (run step s is').2 = before ∧ js.length = after.length := by
  have count := length_run step one s is
  rw [whole, List.length_append] at count
  have early : (is.take before.length).length = before.length := by
    rw [List.length_take]
    omega
  refine ⟨is.take before.length, is.drop before.length, (List.take_append_drop _ _).symm, ?_, ?_⟩
  · rw [← List.take_append_drop before.length is, run_append] at whole
    exact (List.append_inj whole ((length_run step one s _).trans early)).1
  · rw [List.length_drop]
    omega

/-- Every entry of a log is justified by the entries before it. -/
def Explained (p : List ω → ω → Prop) (log : List ω) : Prop :=
  ∀ before e after, log = before ++ e :: after → p before e

theorem explained_nil (p : List ω → ω → Prop) : Explained p [] := by
  intro before e after split
  simp at split

theorem Explained.concat {p : List ω → ω → Prop} {log : List ω} {e : ω}
    (old : Explained p log) (new : p log e) : Explained p (log ++ [e]) := by
  intro before e' after split
  rcases List.eq_nil_or_concat after with rfl | ⟨rest, last, rfl⟩
  · obtain ⟨rfl, same⟩ := List.append_inj' split rfl
    cases same
    exact new
  · have inner : log = before ++ e' :: rest := by
      have shifted : log ++ [e] = (before ++ e' :: rest) ++ [last] := by simpa using split
      exact (List.append_inj' shifted rfl).1
    exact old before e' rest inner

theorem Explained.of_append {p : List ω → ω → Prop} {log more : List ω}
    (whole : Explained p (log ++ more)) : Explained p log := by
  intro before e after split
  apply whole before e (after ++ more)
  rw [split, List.append_assoc, List.cons_append]

/-- The rule for several more entries. -/
theorem Explained.append {p : List ω → ω → Prop} {log : List ω} (old : Explained p log)
    (more : List ω)
    (new : ∀ before e after, more = before ++ e :: after → p (log ++ before) e) :
    Explained p (log ++ more) := by
  induction more using List.reverseRecOn with
  | nil => rwa [List.append_nil]
  | append_singleton more e ih =>
    rw [← List.append_assoc]
    apply Explained.concat
    · apply ih
      intro before e' after split
      apply new before e' (after ++ [e])
      rw [split]
      simp
    · exact new more e [] rfl

end Lib.Machine
