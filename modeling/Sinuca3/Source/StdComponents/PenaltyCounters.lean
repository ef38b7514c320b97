import Sinuca3.Source.StdComponents.BoomFetchControl
import Sinuca3.Source.StdComponents.FetchBuffer

/-!
# Penalties

Both fetchers count mispredictions and pay for them in the same way. What the end of
`Clock` does with the result of its checks is one step of two counters.
-/
namespace Sinuca3.Source

structure PenaltyCounters where
  misspredictPenalty : Nat
  misspredictions : Nat
  currentPenalty : Nat

namespace PenaltyCounters

/-- A cycle: outside of a penalty a prediction taken for wrong is counted. -/
def advance (missed : Bool) (c : PenaltyCounters) : PenaltyCounters :=
  if 0 < c.currentPenalty then { c with currentPenalty := c.currentPenalty - 1 }
  else if missed then
    { c with misspredictions := c.misspredictions + 1, currentPenalty := c.misspredictPenalty }
  else c

/-- A cycle counts a misprediction, and starts a penalty, exactly when none is being paid
and there is one. -/
structure CountsExactly (wrong : Prop) (c c' : PenaltyCounters) : Prop where
  counted : c.misspredictions < c'.misspredictions ↔ c.currentPenalty = 0 ∧ wrong
  started : c.currentPenalty = 0 → (0 < c'.currentPenalty ↔ wrong)

theorem advance_misspredictPenalty (missed : Bool) (c : PenaltyCounters) :
    (c.advance missed).misspredictPenalty = c.misspredictPenalty := by
  unfold advance
  split
  · rfl
  · split <;> rfl

theorem advance_countsExactly {c : PenaltyCounters} (positive : 0 < c.misspredictPenalty)
    (missed : Bool) (wrong : Prop) :
    CountsExactly wrong c (c.advance missed) ↔
      0 < c.currentPenalty ∨ (missed = true ↔ wrong) := by
  unfold advance
  rcases Nat.eq_zero_or_pos c.currentPenalty with outside | paying
  · rw [if_neg (by omega)]
    constructor
    · intro counts
      have started := counts.started outside
      right
      cases missed with
      | false =>
        refine iff_of_false Bool.false_ne_true fun is => ?_
        exact absurd (started.mpr is) (by simp [outside])
      | true => exact iff_of_true rfl (started.mp positive)
    · rintro (paying | same)
      · omega
      · cases missed with
        | false =>
          have right : ¬ wrong := fun is => absurd (same.mpr is) Bool.false_ne_true
          exact ⟨by simp [right], fun _ => by simp [right, outside]⟩
        | true =>
          have is : wrong := same.mp rfl
          exact ⟨by simp [is, outside], fun _ => by simpa [is] using positive⟩
  · rw [if_pos paying]
    refine iff_of_true ⟨?_, fun outside => ?_⟩ (.inl paying)
    · exact iff_of_false (Nat.lt_irrefl _) fun both => absurd both.1 (Nat.pos_iff_ne_zero.mp paying)
    · omega

end PenaltyCounters

namespace Fetcher

def counters (f : Fetcher) : PenaltyCounters where
  misspredictPenalty := f.misspredictPenalty
  misspredictions := f.misspredictions
  currentPenalty := f.currentPenalty

section Count

theorem sendFrom_misspredictions {Req Resp : Type} (message : InstructionPacket → Req)
    (set : FetchBufferEntryFlags → FetchBufferEntryFlags)
    (event : InstructionPacket → FetcherEvent) (n i : Nat) (f : Fetcher)
    (c : Connection Req Resp) :
    (sendFrom message set event n i f c).1.misspredictions = f.misspredictions := by
  induction n generalizing i f c with
  | zero => rfl
  | succ n ih =>
    unfold sendFrom
    split
    · rfl
    · exact ih (i + 1) _ _

theorem clockSendBuffered_misspredictions (f : Fetcher) (ports : FetcherPorts) :
    (f.clockSendBuffered ports).1.misspredictions = f.misspredictions := by
  have memory : (f.sendToMemory ports.instructionMemory).1.misspredictions = f.misspredictions :=
    sendFrom_misspredictions _ _ _ _ _ f _
  unfold clockSendBuffered
  split
  · exact memory
  · exact (sendFrom_misspredictions _ _ _ _ _ _ _).trans memory

theorem checkResponses_misspredictions (responses : List PredictorPacket) (i : Nat) (f : Fetcher) :
    (checkResponses responses i f).2.1.misspredictions = f.misspredictions := by
  induction responses generalizing i f with
  | nil => rfl
  | cons response responses ih => exact ih (i + 1) (f.setFlags i .setPredicted)

theorem clockCheckPredictor_misspredictions (f : Fetcher) (ports : FetcherPorts) :
    (f.clockCheckPredictor ports).2.1.misspredictions = f.misspredictions := by
  unfold clockCheckPredictor
  split
  · rfl
  · dsimp only
    split
    · rfl
    · exact checkResponses_misspredictions _ 0 f

theorem clockBuffered_misspredictions (f : Fetcher) (ports : FetcherPorts) :
    (f.clockBuffered ports).2.1.misspredictions = f.misspredictions :=
  (clockCheckPredictor_misspredictions _ _).trans (f.clockSendBuffered_misspredictions ports)

theorem receive_misspredictions (responses : List InstructionPacket) (f : Fetcher) :
    (receive responses f).1.misspredictions = f.misspredictions := by
  induction responses generalizing f with
  | nil => rfl
  | cons response responses ih => exact ih _

end Count

theorem clockFetchAndRequest_counters (f : Fetcher) (ports : FetcherPorts) :
    (f.clockFetchAndRequest ports).1.counters = f.counters := by
  have count := receive_misspredictions ports.fetch.drainResponses.1 f
  obtain ⟨g, received, _, same⟩ := receive_eq ports.fetch.drainResponses.1 f
  obtain ⟨_, _, _, length, penalty, _⟩ := fields_of_same_control same
  unfold clockFetchAndRequest clockFetch counters
  rw [received] at count
  dsimp only at count ⊢
  rw [received, ← count, ← penalty, ← length]
  split <;> rfl

theorem clock_counters (f : Fetcher) (ports : FetcherPorts) :
    (f.clock ports).1.counters =
      f.counters.advance (f.unconfirmed ports.predictor) := by
  have buffered := f.clockBuffered_misspredictions ports
  obtain ⟨same, _, _⟩ := f.clockBuffered_frame ports
  obtain ⟨_, _, _, length, penalty, _⟩ := fields_of_same_control same
  rw [← clockBuffered_result]
  unfold clock counters PenaltyCounters.advance
  generalize f.clockBuffered ports = result at buffered length penalty ⊢
  obtain ⟨missed, g, ports', events⟩ := result
  dsimp only at buffered length penalty ⊢
  rw [← buffered, ← length, ← penalty]
  split
  · split
    · rfl
    · exact clockFetchAndRequest_counters _ ports'
  · split
    · rfl
    · exact clockFetchAndRequest_counters g ports'

theorem misspredictPenalty_of_counters {f : Fetcher} {c : PenaltyCounters}
    (same : f.counters = c) : f.misspredictPenalty = c.misspredictPenalty := by
  rw [← same]
  rfl

theorem clock_misspredictPenalty (f : Fetcher) (ports : FetcherPorts) :
    (f.clock ports).1.misspredictPenalty = f.misspredictPenalty :=
  (misspredictPenalty_of_counters (f.clock_counters ports)).trans
    (PenaltyCounters.advance_misspredictPenalty _ f.counters)

end Fetcher

namespace BoomFetch

def counters (f : BoomFetch) : PenaltyCounters where
  misspredictPenalty := f.misspredictPenalty
  misspredictions := f.misspredictions
  currentPenalty := f.currentPenalty

theorem clockFetchAndRequest_counters (f : BoomFetch) (ports : BoomFetchPorts) :
    (f.clockFetchAndRequest ports).1.counters = f.counters := by
  obtain ⟨_, _, _, length, count, penalty, _⟩ :=
    fields_of_control (f.clockFetchAndRequest_control ports)
  unfold counters
  rw [count, penalty, length]
  rfl

theorem clock_counters (f : BoomFetch) (ports : BoomFetchPorts) :
    (f.clock ports).1.counters =
      f.counters.advance (f.clockBuffered ports).1 := by
  obtain ⟨_, _, _, length, count, penalty, _⟩ :=
    fields_of_same_control (f.clockBuffered_control ports)
  cases early : f.returnsEarly ports with
  | true =>
    rcases returnsEarly_iff.mp early with paying | ⟨outside, missed⟩
    · rw [f.clock_of_paying ports paying]
      unfold counters PenaltyCounters.advance
      dsimp only
      rw [if_pos (by omega), count, length]
    · rw [f.clock_of_missed ports outside missed]
      unfold counters PenaltyCounters.advance
      dsimp only
      rw [if_neg (by omega), if_pos missed, length]
  | false =>
    obtain ⟨paid, paid_eq, clocked⟩ := f.clock_of_fetch ports early
    obtain ⟨_, confirmed⟩ := reaches_iff.mp early
    rw [clocked]
    refine (paid.clockFetchAndRequest_counters _).trans ?_
    rw [paid_eq]
    unfold counters PenaltyCounters.advance
    dsimp only
    rw [count, length]
    split
    · rfl
    · rename_i outside
      have right := confirmed (Nat.eq_zero_of_not_pos outside)
      have none : f.currentPenalty - 1 = f.currentPenalty := by omega
      rw [right, none, if_neg Bool.false_ne_true]

theorem misspredictPenalty_of_counters {f : BoomFetch} {c : PenaltyCounters}
    (same : f.counters = c) : f.misspredictPenalty = c.misspredictPenalty := by
  rw [← same]
  rfl

theorem clock_misspredictPenalty (f : BoomFetch) (ports : BoomFetchPorts) :
    (f.clock ports).1.misspredictPenalty = f.misspredictPenalty :=
  (misspredictPenalty_of_counters (f.clock_counters ports)).trans
    (PenaltyCounters.advance_misspredictPenalty _ f.counters)

end BoomFetch

end Sinuca3.Source
