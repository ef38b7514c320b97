import Sinuca3.Source.StdComponents.PassedSizes

/-!
# Sizes of the buffers of configured components

A size that a `Configure` passes on is the number that was meant, and not negative, when
that number is one of an `int`. Of the four components none checks it. A buffer of a well
formed size is written inside its block as long as its octets are counted by an `int` too.
-/
namespace Sinuca3.Guarantees
open Lib Source

/-- Sizes passed on for those that were meant. -/
def WellFormedSizes (passed intended : List Int) : Prop :=
  passed = intended ∧ ∀ size ∈ passed, 0 ≤ size

theorem asInt_iff (number : Int) :
    asInt number = number ∧ 0 ≤ asInt number ↔ 0 ≤ number ∧ number < 2147483648 := by
  constructor
  · rintro ⟨same, positive⟩
    have upper := asInt_le number
    rw [same] at positive upper
    exact ⟨positive, upper⟩
  · rintro ⟨lower, upper⟩
    rw [asInt_of_fits lower upper]
    exact ⟨rfl, lower⟩

theorem wellFormed_cons (number : Int) (passed intended : List Int) :
    WellFormedSizes (asInt number :: passed) (number :: intended) ↔
      (0 ≤ number ∧ number < 2147483648) ∧ WellFormedSizes passed intended := by
  unfold WellFormedSizes
  rw [List.cons.injEq, List.forall_mem_cons, ← asInt_iff]
  constructor
  · rintro ⟨⟨same, rest⟩, positive, others⟩
    exact ⟨⟨same, positive⟩, rest, others⟩
  · rintro ⟨⟨same, positive⟩, rest, others⟩
    exact ⟨⟨same, rest⟩, positive, others⟩

theorem wellFormed_nil : WellFormedSizes [] [] :=
  ⟨rfl, fun _ member => absurd member List.not_mem_nil⟩

/-- The same size for several connections. -/
theorem wellFormed_replicate (number : Int) (count : Nat) :
    WellFormedSizes (List.replicate (count + 1) (asInt number))
        (List.replicate (count + 1) number) ↔ 0 ≤ number ∧ number < 2147483648 := by
  induction count with
  | zero => exact (wellFormed_cons number [] []).trans (and_iff_left wellFormed_nil)
  | succ count ih =>
    refine (wellFormed_cons number _ _).trans ?_
    rw [ih, and_self]

/-- What a delay queue is configured with, where its sizes are well formed. -/
def DelayQueueFits (delay throughput : Int) : Prop :=
  if delay = 0 then throughput < 2147483648
  else 1 ≤ throughput ∧ delay * throughput + throughput - 1 < 2147483648

theorem delayQueue_sizes_iff {α : Type} [Inhabited α] {delay : Option Int} {throughput : Int}
    {q : DelayQueue α} (configured : DelayQueue.configure delay throughput = .ok q)
    (isLong : IsLong (delay.getD 0)) :
    WellFormedSizes q.passedSizes (DelayQueue.intendedSizes (delay.getD 0) throughput) ↔
      DelayQueueFits (delay.getD 0) throughput := by
  obtain ⟨positive, some, used, connected, allocated⟩ :=
    DelayQueue.configure_sizes configured isLong
  generalize delay.getD 0 = cycles at *
  unfold DelayQueue.passedSizes DelayQueue.intendedSizes DelayQueueFits
  rw [connected, asInt_ofInt]
  rcases Int.lt_or_eq_of_le positive with delayed | none
  · have one : 1 ≤ cycles := delayed
    rw [if_pos (used.mpr one), if_pos one, if_neg (Int.ne_of_gt delayed), allocated one,
      asInt_ofInt, wellFormed_cons, wellFormed_cons, and_iff_left wellFormed_nil]
    have product : throughput ≤ cycles * throughput := by
      have more := Int.mul_le_mul_of_nonneg_right one some
      rwa [Int.one_mul] at more
    constructor
    · rintro ⟨_, lower, upper⟩
      refine ⟨?_, upper⟩
      by_contra zero
      have nothing : throughput = 0 := by omega
      rw [nothing, Int.mul_zero] at lower
      omega
    · rintro ⟨lower, upper⟩
      omega
  · have unused : ¬ 1 ≤ cycles := by omega
    rw [if_neg (fun delayed => unused (used.mp delayed)), if_neg unused, if_pos none.symm,
      wellFormed_cons, and_iff_left wellFormed_nil]
    omega

theorem boomFetch_sizes_iff {misspredictPenalty : Int} {fetchInterval fetchSize : Option Int}
    {interleavingFactor numberOfEntries : Int} {btbSendTo : Bool} {size : Int} {rasSendTo : Bool}
    {f : BoomFetch} {ports : BoomFetchPorts}
    (configured : BoomFetch.configure misspredictPenalty fetchInterval fetchSize
      interleavingFactor numberOfEntries btbSendTo size rasSendTo = .ok (f, ports)) :
    WellFormedSizes f.passedSizes (List.replicate 5 (fetchSize.getD 1)) ↔
      0 ≤ fetchSize.getD 1 ∧ fetchSize.getD 1 < 2147483648 := by
  obtain ⟨_, _, bytes, _, _, _, _, accepted, _, _, rfl, _⟩ :=
    BoomFetch.configure_parameters configured
  unfold BoomFetch.positiveParameter at accepted
  split at accepted
  · cases accepted
  cases accepted
  unfold BoomFetch.passedSizes
  rw [asInt_ofInt]
  exact wellFormed_replicate _ 4

theorem fetcher_sizes_iff {fetchSize fetchInterval misspredictPenalty : Option Int}
    {predictor : Bool} {f : Fetcher} {ports : FetcherPorts}
    (configured : Fetcher.configure fetchSize fetchInterval misspredictPenalty predictor =
      .ok (f, ports)) :
    WellFormedSizes (f.passedSizes predictor)
        (List.replicate (if predictor then 3 else 2) (fetchSize.getD 1)) ↔
      fetchSize.getD 1 < 2147483648 := by
  obtain ⟨bytes, _, _, accepted, _, _, rfl, _⟩ := Fetcher.configure_parameters configured
  unfold Fetcher.positiveParameter at accepted
  split at accepted
  · cases accepted
  rename_i positive
  cases accepted
  have size : ((fetchSize.getD 1).toNat : Int) = fetchSize.getD 1 :=
    Int.toNat_of_nonneg (by omega)
  unfold Fetcher.passedSizes
  dsimp only
  rw [size]
  have fits : 0 ≤ fetchSize.getD 1 ∧ fetchSize.getD 1 < 2147483648 ↔
      fetchSize.getD 1 < 2147483648 := and_iff_right (by omega)
  cases predictor with
  | false => exact (wellFormed_replicate _ 1).trans fits
  | true => exact (wellFormed_replicate _ 2).trans fits

/-- No `Enqueue` of any run writes outside a buffer allocated with a size. -/
def EnqueuesInside (bufferSize elementSize : Int) (ops : List ExtentOp) : Prop :=
  ∀ inside ∈ (Machine.run CircularBufferExtent.step
    (.allocate bufferSize elementSize) ops).2, inside = true

/-- Every parameter that is accepted: the sizes passed on are well formed when the numbers
meant are those of an `int`. A buffer of a limited size, and one that grows, is then never
written outside as long as its octets are counted by an `int` as well. -/
theorem configured_buffer_sizes {α : Type} [Inhabited α] :
    (∀ (delay : Option Int) (throughput : Int) (q : DelayQueue α), IsLong (delay.getD 0) →
      DelayQueue.configure delay throughput = .ok q →
      (WellFormedSizes q.passedSizes (DelayQueue.intendedSizes (delay.getD 0) throughput) ↔
        DelayQueueFits (delay.getD 0) throughput)) ∧
    (∀ throughput : Option Int,
      WellFormedSizes (Queue.passedSizes throughput) [throughput.getD 0] ↔
        0 ≤ throughput.getD 0 ∧ throughput.getD 0 < 2147483648) ∧
    (∀ misspredictPenalty fetchInterval fetchSize interleavingFactor numberOfEntries btbSendTo
        size rasSendTo f ports,
      BoomFetch.configure misspredictPenalty fetchInterval fetchSize interleavingFactor
        numberOfEntries btbSendTo size rasSendTo = .ok (f, ports) →
      (WellFormedSizes f.passedSizes (List.replicate 5 (fetchSize.getD 1)) ↔
        0 ≤ fetchSize.getD 1 ∧ fetchSize.getD 1 < 2147483648)) ∧
    (∀ fetchSize fetchInterval misspredictPenalty predictor f ports,
      Fetcher.configure fetchSize fetchInterval misspredictPenalty predictor = .ok (f, ports) →
      (WellFormedSizes (f.passedSizes predictor)
          (List.replicate (if predictor then 3 else 2) (fetchSize.getD 1)) ↔
        fetchSize.getD 1 < 2147483648)) ∧
    (∀ bufferSize elementSize, 0 < elementSize → bufferSize ≠ 0 →
      ((∀ ops, EnqueuesInside bufferSize elementSize ops) ↔
        0 < bufferSize ∧ bufferSize * elementSize < 2147483648)) ∧
    ∀ elementSize ops, 0 < elementSize → 8 * elementSize < 2147483648 →
      Machine.Meets CircularBufferExtent.step CircularBufferExtent.GrowthFits
        (.allocate 0 elementSize) ops → EnqueuesInside 0 elementSize ops := by
  refine ⟨?delayQueue, ?queue, ?boomFetch, ?fetcher, ?limited, ?growing⟩
  case delayQueue =>
    intro delay throughput q isLong configured
    exact delayQueue_sizes_iff configured isLong
  case queue =>
    intro throughput
    exact (wellFormed_cons _ [] []).trans (and_iff_left wellFormed_nil)
  case boomFetch =>
    intro _ _ fetchSize _ _ _ _ _ f ports configured
    exact boomFetch_sizes_iff configured
  case fetcher =>
    intro fetchSize _ _ predictor f ports configured
    exact fetcher_sizes_iff configured
  case limited =>
    intro bufferSize elementSize sized bounded
    exact CircularBufferExtent.limited_inside_iff sized bounded
  case growing =>
    intro elementSize ops sized fits room
    exact (CircularBufferExtent.inside_allocate sized ⟨Int.le_refl 0, fits⟩).run ops room

/-- Two messages a cycle, one cycle late, in elements of 24 octets. -/
theorem configured_buffer_sizes_of_two :
    (∃ q : DelayQueue Nat, DelayQueue.configure (some 1) 2 = .ok q ∧
      WellFormedSizes q.passedSizes [2, 3]) ∧
    EnqueuesInside 3 24 [.enqueue, .enqueue, .dequeue, .enqueue, .enqueue, .enqueue] := by
  obtain ⟨delayQueue, _, _, _, limited, _⟩ := configured_buffer_sizes (α := Nat)
  have isLong : IsLong 1 := by
    unfold IsLong
    omega
  have fits : DelayQueueFits 1 2 := by
    unfold DelayQueueFits
    rw [if_neg (by decide)]
    omega
  obtain ⟨q, configured⟩ : ∃ q : DelayQueue Nat, DelayQueue.configure (some 1) 2 = .ok q :=
    ⟨_, rfl⟩
  have intended : DelayQueue.intendedSizes 1 2 = [2, 3] := by decide
  refine ⟨⟨q, configured, ?_⟩, ?_⟩
  · rw [← intended]
    exact (delayQueue (some 1) 2 q isLong configured).mpr fits
  · exact (limited 3 24 (by decide) (by decide)).mpr ⟨by decide, by decide⟩ _

/-- A delay of one cycle for no message allocates -1 elements, and the first `Enqueue`
writes behind nothing. -/
theorem empty_delay_allocates_negative :
    (∃ q : DelayQueue Nat, DelayQueue.configure (some 1) 0 = .ok q ∧ q.passedSizes = [0, -1] ∧
      ¬ WellFormedSizes q.passedSizes (DelayQueue.intendedSizes 1 0)) ∧
    ¬ EnqueuesInside (-1) 24 [.enqueue] := by
  have isLong : IsLong 1 := by
    unfold IsLong
    omega
  obtain ⟨q, configured⟩ : ∃ q : DelayQueue Nat, DelayQueue.configure (some 1) 0 = .ok q :=
    ⟨_, rfl⟩
  obtain ⟨_, _, used, connected, allocated⟩ := DelayQueue.configure_sizes configured isLong
  have passed : q.passedSizes = [0, -1] := by
    unfold DelayQueue.passedSizes
    rw [if_pos (used.mpr (Int.le_refl 1)), connected, allocated (Int.le_refl 1), asInt_ofInt,
      asInt_ofInt]
    decide
  refine ⟨⟨q, configured, passed, fun ⟨_, positive⟩ => ?_⟩, fun inside => ?_⟩
  · rw [passed] at positive
    exact absurd (positive (-1) (by decide)) (by decide)
  · exact absurd (inside false (by decide)) (by decide)

end Sinuca3.Guarantees
