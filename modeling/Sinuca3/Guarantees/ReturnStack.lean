import Mathlib.Data.List.Infix
import Mathlib.Data.List.Induction
import Sinuca3.Lib.Machine
import Sinuca3.Source.StdComponents.Ras

/-!
# The return address stack as a bounded stack

The ring has no count of its elements: a pop of an empty stack and a push on a full one
go round it. A pop returns what its push has stored all the same, whatever happened
before, unless too many later pushes were open at one time between them.
-/
namespace Sinuca3.Guarantees
open Sinuca3.Source Lib

inductive RasOp where
  | update (targetAddress : BitVec 64)
  | query (instruction : InstructionPacket)

/-- The stack and what it answers. -/
def rasStep (ras : Ras) : RasOp → Ras × List PredictorPacket
  | .update targetAddress => (ras.requestUpdate targetAddress, [])
  | .query instruction =>
    ((ras.requestQuery instruction).1, (ras.requestQuery instruction).2.toList)

/-- `end` after an operation, as the source computes it in a `long`. -/
def endAfter (size end_ : Int) : RasOp → Int
  | .update _ => if end_ + 1 ≥ size then 0 else end_ + 1
  | .query _ => if end_ - 1 < 0 then size - 1 else end_ - 1

/-- Pushes without pops less pops without pushes. -/
def opened : List RasOp → Int
  | [] => 0
  | .update _ :: rest => opened rest + 1
  | .query _ :: rest => opened rest - 1

/-- Operations that leave open what was open before, and of their own pushes never have
more open at one time than a limit. -/
structure Enclosed (limit : Int) (ops : List RasOp) : Prop where
  closed : opened ops = 0
  between : ∀ early, early <+: ops → 0 ≤ opened early ∧ opened early ≤ limit

@[simp] theorem opened_append (ops more : List RasOp) :
    opened (ops ++ more) = opened ops + opened more := by
  induction ops with
  | nil => simp [opened]
  | cons op ops ih =>
    cases op <;> simp only [List.cons_append, opened, ih] <;> omega

theorem rasStep_size (ras : Ras) (op : RasOp) : (rasStep ras op).1.size = ras.size := by
  cases op <;> rfl

theorem rasStep_end (ras : Ras) (op : RasOp) :
    ((rasStep ras op).1.top : Int) = endAfter ras.size ras.top op := by
  have inside := ras.top.isLt
  cases op with
  | update targetAddress =>
    simp only [rasStep, Ras.requestUpdate, Ras.pushed, endAfter]
    split
    · rw [if_neg (by omega)]
      rfl
    · rw [if_pos (by omega)]
      rfl
  | query instruction =>
    simp only [rasStep, Ras.requestQuery, Ras.popped, endAfter]
    split
    · rw [if_pos (by omega)]
      dsimp only
      omega
    · rw [if_neg (by omega)]
      dsimp only
      omega

/-- The cursor of the model is the `end` of the source, so that this stays in the ring. -/
theorem ras_end (ras : Ras) (ops : List RasOp) :
    (Machine.run rasStep ras ops).1.size = ras.size ∧
      ((Machine.run rasStep ras ops).1.top : Int) = ops.foldl (endAfter ras.size) ras.top := by
  refine Machine.run_induction rasStep
    (P := fun t done _ => t.size = ras.size ∧ (t.top : Int) = done.foldl (endAfter ras.size) ras.top)
    ⟨rfl, rfl⟩ ?_ ops
  rintro t done _ op ⟨size, top⟩
  rw [List.foldl_concat, ← top, ← size]
  exact ⟨rasStep_size t op, rasStep_end t op⟩

/-- Between a push and its pop the target lies below the pushes that are open. -/
theorem holds_within {ras : Ras} {targetAddress : BitVec 64} (pushed : ras.Holds [targetAddress])
    (ops : List RasOp) (enclosed : ∀ early, early <+: ops →
      0 ≤ opened early ∧ opened early ≤ (ras.size : Int) - 1) :
    ∃ newer : List (BitVec 64), (newer.length : Int) = opened ops ∧
      (Machine.run rasStep ras ops).1.Holds (newer ++ [targetAddress]) := by
  induction ops using List.reverseRecOn with
  | nil => exact ⟨[], rfl, pushed⟩
  | append_singleton ops op ih =>
    obtain ⟨newer, count, holds⟩ :=
      ih fun early first => enclosed early (first.trans (List.prefix_append ops [op]))
    obtain ⟨low, high⟩ := enclosed _ (List.prefix_refl _)
    have size := (ras_end ras ops).1
    rw [Machine.run_concat]
    rw [opened_append] at low high ⊢
    cases op with
    | update later =>
      simp only [opened] at low high ⊢
      refine ⟨later :: newer, by rw [List.length_cons]; omega, ?_⟩
      apply CircularStack.Holds.push holds
      rw [List.length_append, List.length_singleton, size]
      omega
    | query instruction =>
      simp only [opened] at low high ⊢
      cases newer with
      | nil =>
        rw [List.length_nil] at count
        omega
      | cons last older =>
        rw [List.length_cons] at count
        exact ⟨older, by omega, (CircularStack.Holds.pop holds).2⟩

/-- For every size and every sequence of operations, with pops of an empty stack and
pushes on a full one: `end` stays in the ring, and a pop returns the target of its push
unless as many later pushes were open at one time as there are places. -/
theorem ras_is_bounded_stack {size : Int} {sendTo : Bool} {ras : Ras}
    (configured : Ras.configure size sendTo = .ok ras) (ops : List RasOp) :
    (0 ≤ ops.foldl (endAfter size) 0 ∧ ops.foldl (endAfter size) 0 < size) ∧
    ∀ before targetAddress inner instruction after,
      ops = before ++ .update targetAddress :: (inner ++ .query instruction :: after) →
      Enclosed (size - 1) inner →
      (rasStep (Machine.run rasStep ras (before ++ .update targetAddress :: inner)).1
        (.query instruction)).2 =
        [{ type := .responseTakeToAddress, instruction, target := targetAddress }] := by
  obtain ⟨positive, natural, start, _⟩ := Ras.configure_eq configured
  have sized : (ras.size : Int) = size := by
    rw [natural]
    omega
  constructor
  · obtain ⟨same, cursor⟩ := ras_end ras ops
    rw [sized, start, Int.natCast_zero] at cursor
    have inside := (Machine.run rasStep ras ops).1.top.isLt
    omega
  · intro before targetAddress inner instruction after _ enclosed
    have room := (Machine.run rasStep ras before).1.top.pos
    have pushed : (rasStep (Machine.run rasStep ras before).1
        (.update targetAddress)).1.Holds [targetAddress] :=
      CircularStack.Holds.push (CircularStack.holds_nil ⟨_, _⟩) room targetAddress
    have same : (rasStep (Machine.run rasStep ras before).1
        (.update targetAddress)).1.size = ras.size := by
      rw [rasStep_size, (ras_end ras before).1]
    obtain ⟨newer, count, holds⟩ := holds_within pushed inner (by
      rw [same, sized]
      exact enclosed.between)
    have last : newer = [] := by
      apply List.eq_nil_of_length_eq_zero
      rw [enclosed.closed] at count
      omega
    subst last
    rw [Machine.run_append, Machine.run_cons]
    generalize (Machine.run rasStep (rasStep (Machine.run rasStep ras before).1
      (.update targetAddress)).1 inner).1 = t at holds ⊢
    have newest : t.buffer[t.top] = targetAddress := (CircularStack.Holds.pop holds).1
    rw [← newest]
    rfl

/-- A pop of an empty stack of five places, a push, and between it and its pop another
pair. -/
theorem ras_is_bounded_stack_of_five : ∃ ras, Ras.configure 5 false = .ok ras ∧
    (rasStep (Machine.run rasStep ras [.query {}, .update 1, .update 2, .query {}]).1
      (.query {})).2 = [{ type := .responseTakeToAddress, instruction := {}, target := 1 }] := by
  have between : ∀ early ∈ [RasOp.update 2, .query {}].inits,
      0 ≤ opened early ∧ opened early ≤ (5 : Int) - 1 := by decide
  exact ⟨_, rfl, (ras_is_bounded_stack rfl _).2 [.query {}] 1 [.update 2, .query {}] {} [] rfl
    ⟨rfl, fun early first => between early ((List.mem_inits early _).mpr first)⟩⟩

end Sinuca3.Guarantees
