import Sinuca3.Source.StdComponents.BoomFetch
import Sinuca3.Source.StdComponents.DelayQueue
import Sinuca3.Source.StdComponents.Fetcher
import Sinuca3.Source.Utils.CircularBufferExtent

/-!
# Sizes of buffers

What the `Configure`s pass to `Connect` and `Allocate`, which take an `int`. The parameters
are a `long` each; `Queue` takes its throughput as it is. An array of entries for which
there is no memory is no return from `Configure`.
-/
namespace Sinuca3.Source

/-- A number that a `long` can be. -/
def IsLong (number : Int) : Prop := -9223372036854775808 ≤ number ∧ number < 9223372036854775808

/-- The low bits of an `unsigned long` are those of the number it was made from. -/
theorem asInt_ofInt (number : Int) : asInt (BitVec.ofInt 64 number).toNat = asInt number := by
  have positive : (0 : Int) ≤ number % 18446744073709551616 := Int.emod_nonneg _ (by decide)
  have whole : ((BitVec.ofInt 64 number).toNat : Int) = number % 18446744073709551616 := by
    rw [BitVec.toNat_ofInt]
    exact Int.toNat_of_nonneg positive
  have parts : number % 18446744073709551616 =
      number - (4294967296 : Nat) * (4294967296 * (number / 18446744073709551616)) := by
    omega
  unfold asInt
  rw [whole, parts]
  exact Int.sub_mul_bmod_self_left _ _ _

namespace DelayQueue

variable {α : Type}

/-- To `sendTo`, and for the delay buffer if there is one. -/
def passedSizes (q : DelayQueue α) : List Int :=
  asInt q.throughput.toNat :: if q.useDelayBuffer then [asInt q.delayBufferSize.toNat] else []

/-- The same sizes as the numbers they stand for. -/
def intendedSizes (delay throughput : Int) : List Int :=
  throughput :: if 1 ≤ delay then [delay * throughput + throughput - 1] else []

end DelayQueue

/-- To `sendTo`; a throughput that is not given is 0. -/
def Queue.passedSizes (throughput : Option Int) : List Int := [asInt (throughput.getD 0)]

/-- To `fetch`, `instructionMemory`, `predictor`, `btb` and `ras`. -/
def BoomFetch.passedSizes (f : BoomFetch) : List Int := List.replicate 5 (asInt f.fetchSize)

/-- To `fetch`, `instructionMemory` and, if there is one, `predictor`. -/
def Fetcher.passedSizes (f : Fetcher) (predictor : Bool) : List Int :=
  List.replicate (if predictor then 3 else 2) (asInt f.fetchSize)

/-- What the queue's fields are after `Configure`. -/
theorem DelayQueue.configure_sizes {α : Type} [Inhabited α] {delay : Option Int}
    {throughput : Int} {q : DelayQueue α} (configured : configure delay throughput = .ok q)
    (isLong : IsLong (delay.getD 0)) :
    0 ≤ delay.getD 0 ∧ 0 ≤ throughput ∧ (q.useDelayBuffer = true ↔ 1 ≤ delay.getD 0) ∧
      q.throughput = BitVec.ofInt 64 throughput ∧
      (1 ≤ delay.getD 0 → q.delayBufferSize =
        BitVec.ofInt 64 (delay.getD 0 * throughput + throughput - 1)) := by
  obtain ⟨_, upper⟩ := isLong
  obtain ⟨positive, some, size, sized, rfl⟩ := configure_eq configured
  have used : (1 : BitVec 64) ≤ BitVec.ofInt 64 (delay.getD 0) ↔ 1 ≤ delay.getD 0 := by
    have one : (1 : BitVec 64).toNat = 1 := rfl
    rw [BitVec.le_def, BitVec.toNat_ofInt, Int.emod_eq_of_lt (by omega) (by omega), one]
    omega
  refine ⟨positive, some, decide_eq_true_iff.trans used, rfl, fun delayed => ?_⟩
  have minus : BitVec.ofInt 64 (-1) = -(1 : BitVec 64) := by decide
  dsimp only
  rw [sized, if_pos (used.mpr delayed), Int.sub_eq_add_neg, BitVec.ofInt_add, BitVec.ofInt_add,
    BitVec.ofInt_mul, minus, BitVec.sub_eq_add_neg]

end Sinuca3.Source
