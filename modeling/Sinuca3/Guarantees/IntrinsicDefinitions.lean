import Mathlib.Algebra.Order.BigOperators.Group.List
import Mathlib.Algebra.Order.Group.Nat
import Sinuca3.Source.TraceGenerator.Intrinsics

/-!
# Definitions of intrinsics

Which options `LoadIntrinsics` loads without writing past the arrays of a record. The
name's array has an octet less than a mnemonic's, to whose length names are cut.
-/
namespace Sinuca3.Guarantees
open Sinuca3.Source

/-- No array of any record is written past its end, however many turns the splitter is
given beyond those that it needs. -/
def DefinitionsFit (pin : PinRegs) (options : List IntrinsicOption) : Prop :=
  ∀ turns, (∀ o ∈ options, o.text.length < turns) →
    ∃ intrinsics, loadIntrinsics pin turns (options.map (·.text)) = .ok intrinsics

/-- The options are loaded one after the other, and the first that does not fit ends it. -/
theorem loadIntrinsics_iff (pin : PinRegs) {turns : Nat} {options : List IntrinsicOption}
    (enough : ∀ o ∈ options, o.text.length < turns) :
    (∃ intrinsics, loadIntrinsics pin turns (options.map (·.text)) = .ok intrinsics) ↔
      ∀ o ∈ options, o.name.length < instMnemonicLen - 1 := by
  induction options with
  | nil => exact ⟨fun _ _ member => absurd member List.not_mem_nil, fun _ => ⟨[], rfl⟩⟩
  | cons o options ih =>
    obtain ⟨here, later⟩ := List.forall_mem_cons.mp enough
    rw [List.forall_mem_cons, ← ih later, List.map_cons, loadIntrinsics]
    rcases Nat.lt_or_ge o.name.length (instMnemonicLen - 1) with short | long
    · obtain ⟨i, loaded, _⟩ := o.loadIntrinsic_short pin here short
      rw [loaded]
      cases rest : loadIntrinsics pin turns (options.map (·.text)) with
      | error fault => simp [bind, Except.bind]
      | ok intrinsics => simp [bind, Except.bind, pure, Except.pure, short]
    · rw [o.loadIntrinsic_long pin here long]
      simp [bind, Except.bind, Nat.not_lt.mpr long]

/-- For every list of options of the form `name:readregs:writeregs`: the arrays of their
records are kept to exactly when every name is shorter than its array. -/
theorem intrinsic_definitions_fit (pin : PinRegs) (options : List IntrinsicOption) :
    DefinitionsFit pin options ↔ ∀ o ∈ options, o.name.length < instMnemonicLen - 1 := by
  constructor
  · intro fit
    -- as many turns as all the options have octets
    have enough : ∀ o ∈ options, o.text.length < (options.map (·.text.length)).sum + 1 :=
      fun o member => Nat.lt_succ_of_le
        (List.le_sum_of_mem (List.mem_map_of_mem member))
    exact (loadIntrinsics_iff pin enough).mp (fit _ enough)
  · intro short turns enough
    exact (loadIntrinsics_iff pin enough).mpr short

/-- An intrinsic with a name of 25 octets, which reads `rax` and `rbx`. -/
def longNamed : IntrinsicOption where
  name := List.replicate 25 (octet 'a')
  readRegs := octets "rax,rbx"
  writeRegs := octets "rcx"
  name_plain := by decide
  readRegs_plain := by decide
  writeRegs_plain := by decide
  small := by decide

/-- The terminator of its name is written past the end. -/
theorem long_name_overflows : ¬ DefinitionsFit ⟨fun _ => 3, 0⟩ [longNamed] := by
  intro fit
  have enough : ∀ o ∈ [longNamed], o.text.length < 64 := by decide
  obtain ⟨intrinsics, loaded⟩ := fit 64 enough
  have long : loadIntrinsic ⟨fun _ => 3, 0⟩ 64 longNamed.text = .error (.past .name) :=
    longNamed.loadIntrinsic_long _ (by decide) (by decide)
  rw [List.map_cons, List.map_nil, loadIntrinsics, long] at loaded
  cases loaded

end Sinuca3.Guarantees
