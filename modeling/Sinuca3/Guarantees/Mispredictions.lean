import Sinuca3.Guarantees.FullAddresses
import Sinuca3.Guarantees.ReturnAddresses
import Sinuca3.Source.StdComponents.PenaltyCounters

/-!
# Counted mispredictions

A check of a fetcher returns the same when no response has come as when one is wrong, and
boom fetch counts a misprediction only when all three of its checks return so.
-/
namespace Sinuca3.Guarantees
open Sinuca3.Source Lib

/-- A response that is checked: the address it predicts, and the one that followed. -/
structure Comparison where
  predicted : BitVec 64
  followed : BitVec 64
  deriving DecidableEq

/-- The prediction is wrong. -/
def Comparison.wrong (c : Comparison) : Bool := c.predicted ≠ c.followed

/-- It is, for the low half of the address that followed. -/
def Comparison.wrongInLowHalf (c : Comparison) : Bool := truncated c.followed ≠ c.predicted

section Fetcher

/-- What the events of a fetcher compare. -/
def comparisons (events : List FetcherEvent) : List Comparison :=
  events.filterMap fun
    | .attributed _ instruction response =>
      some ⟨Fetcher.predictedTarget instruction response, instruction.nextInstruction⟩
    | _ => none

/-- A cycle, with the connections as the other components leave them. -/
def fetcherCycle (f : Fetcher) (ports : FetcherPorts) : Fetcher × List FetcherEvent :=
  ((f.clock ports).1, (f.clock ports).2.2)

/-- A cycle counts a misprediction exactly if no penalty is being paid and a response
received in it is wrong. -/
def CountsWrongResponses (f : Fetcher) (ports : FetcherPorts) : Prop :=
  f.counters.CountsExactly (∃ c ∈ comparisons (f.clock ports).2.2, c.wrong)
    (f.clock ports).1.counters

/-- A penalty is being paid, or the predictor has a response. -/
def Answered (f : Fetcher) (ports : FetcherPorts) : Prop :=
  0 < f.currentPenalty ∨ ∀ c, ports.predictor = some c → c.readableResponses ≠ []

theorem comparisons_append (events more : List FetcherEvent) :
    comparisons (events ++ more) = comparisons events ++ comparisons more :=
  List.filterMap_append

theorem comparisons_attributed (i : Nat) (instruction : InstructionPacket)
    (response : PredictorPacket) (events : List FetcherEvent) :
    comparisons (.attributed i instruction response :: events) =
      ⟨Fetcher.predictedTarget instruction response, instruction.nextInstruction⟩ ::
        comparisons events := rfl

/-- Sends and receptions compare nothing. -/
theorem comparisons_sendUnsent {Req Resp : Type} (message : InstructionPacket → Req)
    (set : FetchBufferEntryFlags → FetchBufferEntryFlags)
    (event : InstructionPacket → FetcherEvent) (quiet : ∀ p, comparisons [event p] = [])
    (isSent : FetchBufferEntryFlags → Bool) (f : Fetcher) (c : Connection Req Resp) :
    comparisons (Fetcher.sendUnsent message set event isSent f c).2.2 = [] := by
  obtain ⟨f', c', sent, _⟩ := Fetcher.sendUnsent_eq message set event isSent f c rfl rfl
  rw [sent]
  unfold comparisons
  rw [List.filterMap_eq_nil_iff]
  intro e member
  obtain ⟨entry, _, rfl⟩ := List.mem_map.mp member
  have none := quiet entry.instruction
  unfold comparisons at none
  rw [List.filterMap_eq_nil_iff] at none
  exact none _ (List.mem_singleton_self _)

theorem comparisons_receptions (slot : Nat) (responses : List InstructionPacket) :
    comparisons (Fetcher.receptions slot responses) = [] := by
  induction responses generalizing slot with
  | nil => rfl
  | cons response responses ih => exact ih (slot + 1)

theorem comparisons_clockSendBuffered (f : Fetcher) (ports : FetcherPorts) :
    comparisons (f.clockSendBuffered ports).2.2 = [] := by
  have memory := comparisons_sendUnsent id .setSentToMemory .sentToMemory (fun _ => rfl)
    (·.sentToMemory) f ports.instructionMemory
  unfold Fetcher.clockSendBuffered
  split
  · exact memory
  · rw [comparisons_append]
    refine List.append_eq_nil_iff.mpr ⟨memory, ?_⟩
    exact comparisons_sendUnsent Fetcher.query .setSentToPredictor .sentToPredictor (fun _ => rfl)
      (·.sentToPredictor) _ _

theorem comparisons_checkResponses (responses : List PredictorPacket) (i : Nat) (f : Fetcher) :
    (comparisons (Fetcher.checkResponses responses i f).2.2).any Comparison.wrong =
      f.wrongAbout responses i := by
  induction responses generalizing i f with
  | nil => rfl
  | cons response responses ih =>
    unfold Fetcher.checkResponses Fetcher.wrongAbout
    dsimp only
    rw [comparisons_attributed, List.any_cons, ih,
      Fetcher.wrongAbout_congr (Fetcher.setFlags_instruction f i .setPredicted)]
    rfl

theorem comparisons_clockUnbuffer (f : Fetcher) : comparisons f.clockUnbuffer.2 = [] := by
  unfold Fetcher.clockUnbuffer comparisons
  rw [List.filterMap_eq_nil_iff]
  intro e member
  obtain ⟨k, _, rfl⟩ := List.mem_map.mp member
  rfl

/-- The responses of the predictor, if there is one, are compared. -/
theorem comparisons_clockBuffered (f : Fetcher) (ports : FetcherPorts) :
    (comparisons (f.clockBuffered ports).2.2.2).any Comparison.wrong =
      match ports.predictor with
      | none => false
      | some c => f.wrongAbout c.readableResponses 0 := by
  unfold Fetcher.clockBuffered
  dsimp only
  rw [comparisons_append, comparisons_append, comparisons_clockSendBuffered,
    comparisons_clockUnbuffer, List.nil_append, List.append_nil]
  unfold Fetcher.clockSendBuffered
  rcases ports.predictor with _ | c
  · rfl
  · obtain ⟨f', c', sent, _, _, views⟩ :=
      Fetcher.sendUnsent_eq Fetcher.query .setSentToPredictor .sentToPredictor
        (·.sentToPredictor) (f.sendToMemory ports.instructionMemory).1 c rfl rfl
    have same : ∀ k, (f'.fetchBuffer k).instruction = (f.fetchBuffer k).instruction := by
      intro k
      have second := Fetcher.sendUnsent_instruction Fetcher.query .setSentToPredictor
        .sentToPredictor (·.sentToPredictor) (f.sendToMemory ports.instructionMemory).1 c k
      rw [sent] at second
      exact second.trans (Fetcher.sendUnsent_instruction id .setSentToMemory .sentToMemory
        (·.sentToMemory) f ports.instructionMemory k)
    obtain ⟨c'', drain, _⟩ := c'.drainResponses_eq
    unfold Fetcher.sendToPredictor Fetcher.clockCheckPredictor
    dsimp only
    rw [sent]
    dsimp only
    rw [drain, views.readableResponses]
    cases responses : c.readableResponses with
    | nil => rfl
    | cons response rest =>
      dsimp only
      rw [comparisons_checkResponses, Fetcher.wrongAbout_congr same]

/-- Nothing else is. -/
theorem comparisons_clock (f : Fetcher) (ports : FetcherPorts) :
    comparisons (f.clock ports).2.2 = comparisons (f.clockBuffered ports).2.2.2 := by
  have fetch : ∀ (g : Fetcher) (ports' : FetcherPorts) (events : List FetcherEvent),
      comparisons (events ++ (g.clockFetchAndRequest ports').2.2) = comparisons events := by
    intro g ports' events
    obtain ⟨g', received, _⟩ := Fetcher.receive_eq ports'.fetch.drainResponses.1 g
    unfold Fetcher.clockFetchAndRequest Fetcher.clockFetch
    dsimp only
    rw [received, comparisons_append]
    dsimp only
    split <;> exact (congrArg _ (comparisons_receptions _ _)).trans (List.append_nil _)
  unfold Fetcher.clock
  generalize f.clockBuffered ports = buffered
  obtain ⟨missed, g, ports', events⟩ := buffered
  dsimp only
  split
  · split
    · rfl
    · exact fetch _ ports' events
  · split
    · rfl
    · exact fetch g ports' events

/-- One cycle. -/
theorem countsWrongResponses_iff (f : Fetcher) (ports : FetcherPorts)
    (positive : 0 < f.misspredictPenalty) : CountsWrongResponses f ports ↔ Answered f ports := by
  have wrong : (∃ c ∈ comparisons (f.clock ports).2.2, c.wrong) ↔ _ :=
    List.any_eq_true.symm
  unfold CountsWrongResponses Answered
  rw [f.clock_counters, PenaltyCounters.advance_countsExactly positive, wrong, comparisons_clock,
    comparisons_clockBuffered]
  unfold Fetcher.unconfirmed
  refine or_congr_right ?_
  rcases ports.predictor with _ | c
  · simp
  · by_cases silent : c.readableResponses = []
    · simp [silent, Fetcher.wrongAbout]
    · simp [silent]

end Fetcher

section Boom

/-- The comparisons of `ClockCheckPredictor`, the first for the entry at `i`. -/
def predictorComparisons (f : BoomFetch) : List PredictorPacket → Nat → List Comparison
  | [], _ => []
  | response :: responses, i =>
    let instruction := (f.fetchBuffer i).instruction
    ⟨BoomFetch.predictedTarget instruction response, instruction.nextInstruction⟩ ::
      predictorComparisons f responses (i + 1)

def rasComparison (response : PredictorPacket) : Comparison where
  predicted := response.target
  followed := response.instruction.nextInstruction

/-- The comparisons of `ClockCheckBTB`. -/
def btbComparisons : List BTBPacket → BoomFetch → List Comparison
  | [], _ => []
  | response :: responses, f =>
    ⟨BoomFetch.btbTarget response, (answeredBranch f).nextInstruction⟩ ::
      btbComparisons responses (f.checkBTB [response]).2

/-- The responses checked in a cycle. -/
structure Comparisons where
  predictor : List Comparison
  ras : List Comparison
  btb : List Comparison

/-- Each check on what those before it leave. -/
def boomComparisons (f : BoomFetch) (ports : BoomFetchPorts) : Comparisons :=
  let sent := f.clockSendBuffered ports
  let predicted := sent.1.clockCheckPredictor sent.2.1
  let ras := predicted.2.1.clockCheckRas
  { predictor := predictorComparisons sent.1 sent.2.1.predictor.readableResponses
      (sent.1.skipWhile (·.predictorCheck) sent.1.fetchSize 0)
    ras := predicted.2.1.clockedRas.1.map rasComparison
    btb := btbComparisons ras.2.1.clockedBTB.1 ras.2.1.clockedBTB.2 }

def Comparisons.Wrong (c : Comparisons) : Prop :=
  ∃ comparison ∈ c.predictor ++ c.ras ++ c.btb, comparison.wrong

instance (c : Comparisons) : Decidable c.Wrong := inferInstanceAs (Decidable (∃ _ ∈ _, _))

/-- A cycle counts a misprediction exactly if no penalty is being paid and a response
checked in it is wrong. -/
def CountsWrongChecks (f : BoomFetch) (ports : BoomFetchPorts) : Prop :=
  f.counters.CountsExactly (boomComparisons f ports).Wrong (f.clock ports).1.counters

/-- No responses, or one of them is found wrong. -/
def SilentOrWrong (finds : Comparison → Bool) (comparisons : List Comparison) : Prop :=
  comparisons = [] ∨ ∃ c ∈ comparisons, finds c

instance (finds : Comparison → Bool) (comparisons : List Comparison) :
    Decidable (SilentOrWrong finds comparisons) := inferInstanceAs (Decidable (_ ∨ _))

/-- If a response is wrong then each check has none or finds one wrong, and if none is
then one of the checks has responses and finds none wrong. -/
structure Comparisons.Unanimous (c : Comparisons) : Prop where
  wrong : c.Wrong → SilentOrWrong Comparison.wrong c.predictor ∧
    SilentOrWrong Comparison.wrong c.ras ∧ SilentOrWrong Comparison.wrongInLowHalf c.btb
  right : ¬ c.Wrong → c.predictor ≠ [] ∨ c.ras ≠ [] ∨
    (c.btb ≠ [] ∧ ∀ comparison ∈ c.btb, comparison.wrongInLowHalf = false)

/-- A penalty is being paid, or the checks are of one opinion. -/
def Confirmed (f : BoomFetch) (ports : BoomFetchPorts) : Prop :=
  0 < f.currentPenalty ∨ (boomComparisons f ports).Unanimous

theorem predictorComparisons_congr {f g : BoomFetch}
    (same : ∀ k, (f.fetchBuffer k).instruction = (g.fetchBuffer k).instruction)
    (responses : List PredictorPacket) (i : Nat) :
    predictorComparisons f responses i = predictorComparisons g responses i := by
  induction responses generalizing i with
  | nil => rfl
  | cons response responses ih => rw [predictorComparisons, predictorComparisons, same, ih]

/-- What `ClockCheckPredictor` finds. -/
theorem checkPredictor_comparisons (responses : List PredictorPacket) (i : Nat) (f : BoomFetch) :
    (BoomFetch.checkPredictor responses i f).1 =
      (predictorComparisons f responses i).any Comparison.wrong := by
  induction responses generalizing i f with
  | nil => rfl
  | cons response responses ih =>
    rw [BoomFetch.checkPredictor, predictorComparisons, List.any_cons]
    dsimp only
    rw [ih, predictorComparisons_congr (f.setFlags_instruction i .setPredictorCheck)]
    rfl

/-- What `ClockCheckRas` finds. -/
theorem mismatch_comparisons (responses : List PredictorPacket) :
    responses.any BoomFetch.mismatch = (responses.map rasComparison).any Comparison.wrong := by
  rw [List.any_map]
  refine List.any_congr rfl fun response => ?_
  exact decide_eq_decide.mpr ne_comm

/-- What `ClockCheckBTB` finds. -/
theorem checkBTB_comparisons (responses : List BTBPacket) (f : BoomFetch) :
    (f.checkBTB responses).1 = (btbComparisons responses f).any Comparison.wrongInLowHalf := by
  induction responses generalizing f with
  | nil => rfl
  | cons response responses ih =>
    rw [checkBTB_cons, ih, (checkBTB_single f response).1, btbComparisons, List.any_cons]
    rfl

/-- What a check returns. -/
theorem silentOrWrong_iff {Resp : Type} {finds : Comparison → Bool} {comparisons : List Comparison}
    {responses : List Resp} [Decidable (responses = [])]
    (silent : comparisons = [] ↔ responses = []) :
    (responses = [] || comparisons.any finds) = true ↔ SilentOrWrong finds comparisons := by
  unfold SilentOrWrong
  rw [Bool.or_eq_true, decide_eq_true_eq, List.any_eq_true, silent]

theorem clockCheckPredictor_comparisons (f : BoomFetch) (ports : BoomFetchPorts) :
    (f.clockCheckPredictor ports).1 = true ↔
      SilentOrWrong Comparison.wrong (predictorComparisons f ports.predictor.readableResponses
        (f.skipWhile (·.predictorCheck) f.fetchSize 0)) := by
  obtain ⟨c, drain, _⟩ := ports.predictor.drainResponses_eq
  unfold BoomFetch.clockCheckPredictor
  dsimp only
  rw [drain, checkPredictor_comparisons]
  refine silentOrWrong_iff ?_
  cases ports.predictor.readableResponses <;> simp [predictorComparisons]

theorem clockCheckRas_comparisons (f : BoomFetch) :
    f.clockCheckRas.1 = true ↔
      SilentOrWrong Comparison.wrong (f.clockedRas.1.map rasComparison) := by
  unfold BoomFetch.clockCheckRas
  dsimp only
  rw [mismatch_comparisons]
  exact silentOrWrong_iff List.map_eq_nil_iff

theorem clockCheckBTB_comparisons (f : BoomFetch) :
    f.clockCheckBTB.1 = true ↔
      SilentOrWrong Comparison.wrongInLowHalf (btbComparisons f.clockedBTB.1 f.clockedBTB.2) := by
  unfold BoomFetch.clockCheckBTB
  dsimp only
  rw [checkBTB_comparisons]
  refine silentOrWrong_iff ?_
  cases f.clockedBTB.1 <;> simp [btbComparisons]

/-- The three checks of a clock. -/
theorem clockBuffered_comparisons (f : BoomFetch) (ports : BoomFetchPorts) :
    (f.clockBuffered ports).1 = true ↔
      SilentOrWrong Comparison.wrong (boomComparisons f ports).predictor ∧
      SilentOrWrong Comparison.wrong (boomComparisons f ports).ras ∧
      SilentOrWrong Comparison.wrongInLowHalf (boomComparisons f ports).btb := by
  unfold BoomFetch.clockBuffered boomComparisons
  dsimp only
  rw [Bool.and_eq_true, Bool.and_eq_true, and_assoc]
  exact and_congr (clockCheckPredictor_comparisons _ _)
    (and_congr (clockCheckRas_comparisons _) (clockCheckBTB_comparisons _))

/-- Where no response is wrong, a check of full addresses finds one wrong only if it has
none. -/
theorem silentOrWrong_of_right {comparisons : List Comparison}
    (right : ∀ c ∈ comparisons, c.wrong = false) :
    SilentOrWrong Comparison.wrong comparisons ↔ comparisons = [] := by
  unfold SilentOrWrong
  constructor
  · rintro (silent | ⟨c, member, wrong⟩)
    · exact silent
    · rw [right c member] at wrong
      cases wrong
  · exact .inl

/-- The three checks together find what they should if and only if they are of one
opinion. -/
theorem unanimous_iff (c : Comparisons) :
    (SilentOrWrong Comparison.wrong c.predictor ∧ SilentOrWrong Comparison.wrong c.ras ∧
        SilentOrWrong Comparison.wrongInLowHalf c.btb ↔ c.Wrong) ↔ c.Unanimous := by
  by_cases wrong : c.Wrong
  · constructor
    · intro same
      exact ⟨fun _ => same.mpr wrong, fun right => absurd wrong right⟩
    · intro unanimous
      exact iff_of_true (unanimous.wrong wrong) wrong
  · have right : ∀ comparison ∈ c.predictor ++ c.ras ++ c.btb, comparison.wrong = false := by
      intro comparison member
      rw [Bool.eq_false_iff]
      exact fun is => wrong ⟨comparison, member, is⟩
    rw [silentOrWrong_of_right fun comparison member => right comparison (by simp [member]),
      silentOrWrong_of_right fun comparison member => right comparison (by simp [member])]
    have answered : (¬ SilentOrWrong Comparison.wrongInLowHalf c.btb) ↔
        c.btb ≠ [] ∧ ∀ comparison ∈ c.btb, comparison.wrongInLowHalf = false := by
      unfold SilentOrWrong
      simp
    constructor
    · intro same
      refine ⟨fun is => absurd is wrong, fun _ => ?_⟩
      have some := same.not.mpr wrong
      rw [not_and_or, not_and_or, answered] at some
      exact some
    · intro unanimous
      have some := unanimous.right wrong
      rw [← answered, ← not_and_or, ← not_and_or] at some
      exact iff_of_false some wrong

/-- One cycle. -/
theorem countsWrongChecks_iff (f : BoomFetch) (ports : BoomFetchPorts)
    (positive : 0 < f.misspredictPenalty) : CountsWrongChecks f ports ↔ Confirmed f ports := by
  unfold CountsWrongChecks Confirmed
  rw [f.clock_counters, PenaltyCounters.advance_countsExactly positive,
    clockBuffered_comparisons, unanimous_iff]
  rfl

end Boom

/-- For every run of a fetcher, its cycles count mispredictions as they happen if and only
if a penalty is being paid in each, or the predictor has a response; and for every run of
a boom fetch, if and only if a penalty is being paid in each, or its checks are of one
opinion. -/
theorem mispredictions_counted {fetchSize fetchInterval misspredictPenalty : Option Int}
    {predictor : Bool} {f : Fetcher} {ports : FetcherPorts}
    (configured : Fetcher.configure fetchSize fetchInterval misspredictPenalty predictor =
      .ok (f, ports))
    {boomPenalty : Int} {boomInterval boomSize : Option Int}
    {interleavingFactor numberOfEntries : Int} {btbSendTo : Bool} {size : Int} {rasSendTo : Bool}
    {b : BoomFetch} {boomPorts : BoomFetchPorts}
    (boomConfigured : BoomFetch.configure boomPenalty boomInterval boomSize interleavingFactor
      numberOfEntries btbSendTo size rasSendTo = .ok (b, boomPorts))
    (cycles : List FetcherPorts) (boomCycles : List BoomFetchPorts) :
    (Machine.Meets fetcherCycle CountsWrongResponses f cycles ↔
        Machine.Meets fetcherCycle Answered f cycles) ∧
      (Machine.Meets boomCycle CountsWrongChecks b boomCycles ↔
        Machine.Meets boomCycle Confirmed b boomCycles) := by
  constructor
  · apply Machine.meets_congr fetcherCycle _ _ fun f => 0 < f.misspredictPenalty
    · exact countsWrongResponses_iff
    · intro f ports positive _
      unfold fetcherCycle
      dsimp only
      rw [f.clock_misspredictPenalty ports]
      exact positive
    · obtain ⟨_, _, penalty, _, _, positive, rfl, _⟩ := Fetcher.configure_eq configured
      exact positive
  · apply Machine.meets_congr boomCycle _ _ fun b => 0 < b.misspredictPenalty
    · exact countsWrongChecks_iff
    · intro b ports positive _
      unfold boomCycle
      dsimp only
      rw [b.clock_misspredictPenalty ports]
      exact positive
    · obtain ⟨penalty, _, _, _, _, positive, _, _, _, _, rfl, _⟩ :=
        BoomFetch.configure_ok boomConfigured
      exact positive

/-- The connections of a fetcher with a predictor. -/
def fetcherPorts (ports : BoomFetchPorts) : FetcherPorts where
  fetch := ports.fetch
  instructionMemory := ports.instructionMemory
  predictor := some ports.predictor

/-- A jump at address 16 of four octets. -/
def jump : InstructionPacket :=
  { staticInfo := { instAddress := 16, instSize := 4 }, nextInstruction := 64 }

/-- After a wrong response at the start, a jump arrives in the second cycle, the query for it
is sent in the third and its answer, that it is not taken, comes in the fifth. -/
def jumpAnswered : List BoomFetchPorts :=
  [arriving [] [{ type := .responseTakeToAddress, target := 5 }], arriving [jump] [],
    arriving [] [], arriving [] [],
    arriving [] [{ type := .responseDontTake, instruction := jump }]]

/-- Two wrong responses, two mispredictions. -/
theorem mispredictions_counted_of_answer :
    ∃ (f : Fetcher) (b : BoomFetch),
      Machine.Meets fetcherCycle CountsWrongResponses f (jumpAnswered.map fetcherPorts) ∧
        Machine.Meets boomCycle CountsWrongChecks b jumpAnswered ∧
        (Machine.run fetcherCycle f (jumpAnswered.map fetcherPorts)).1.misspredictions = 2 ∧
        (Machine.run boomCycle b jumpAnswered).1.misspredictions = 2 := by
  obtain ⟨f, ports, configured⟩ : ∃ (f : Fetcher) (ports : FetcherPorts),
      Fetcher.configure (some 4) none (some 3) true = .ok (f, ports) := ⟨_, _, rfl⟩
  obtain ⟨b, boomPorts, boomConfigured⟩ : ∃ (b : BoomFetch) (ports : BoomFetchPorts),
      BoomFetch.configure 3 none (some 4) 1 16 false 2 false = .ok (b, ports) := ⟨_, _, rfl⟩
  obtain ⟨fetcher, boom⟩ := mispredictions_counted configured boomConfigured
    (jumpAnswered.map fetcherPorts) jumpAnswered
  refine ⟨f, b, fetcher.mpr ?_, boom.mpr ?_, ?_, ?_⟩
  · cases configured
    refine ⟨.inr ?_, .inl (by decide +kernel), .inl (by decide +kernel), .inl (by decide +kernel),
      .inr ?_, trivial⟩
    · rintro c predictor
      cases predictor
      decide +kernel
    · rintro c predictor
      cases predictor
      decide +kernel
  · cases boomConfigured
    refine ⟨.inr ⟨fun _ => ?_, fun right => absurd ?_ right⟩, .inl (by decide +kernel),
      .inl (by decide +kernel), .inl (by decide +kernel),
      .inr ⟨fun _ => ?_, fun right => absurd ?_ right⟩, trivial⟩
    · decide +kernel
    · decide +kernel
    · decide +kernel
    · decide +kernel
  · cases configured
    decide +kernel
  · cases boomConfigured
    decide +kernel

/-- A call and the return from it arrive, and the prediction for the call is wrong when
the return address is right. -/
def outvoted : List BoomFetchPorts :=
  [arriving [] [], arriving [callTo 21] [], arriving [returnFrom 21] [], arriving [] [],
    arriving [] [{ type := .responseTakeToAddress, instruction := callTo 21, target := 99 }]]

/-- The first cycle of a fetcher, and of a boom fetch, counts a misprediction without a
response, and a misprediction that only one of two checks finds is not counted. -/
theorem mispredictions_miscounted :
    ∃ (f : Fetcher) (b : BoomFetch) (ports : FetcherPorts) (boomPorts : BoomFetchPorts),
      Fetcher.configure (some 4) none (some 3) true = .ok (f, ports) ∧
      BoomFetch.configure 3 none (some 4) 1 16 false 2 false = .ok (b, boomPorts) ∧
      ¬ Machine.Meets fetcherCycle CountsWrongResponses f [ports] ∧
      ¬ Machine.Meets boomCycle CountsWrongChecks b [boomPorts] ∧
      ¬ CountsWrongChecks (Machine.run boomCycle b (outvoted.take 4)).1
        (outvoted.getLastD boomPorts) := by
  obtain ⟨f, ports, configured⟩ : ∃ (f : Fetcher) (ports : FetcherPorts),
      Fetcher.configure (some 4) none (some 3) true = .ok (f, ports) := ⟨_, _, rfl⟩
  obtain ⟨b, boomPorts, boomConfigured⟩ : ∃ (b : BoomFetch) (ports : BoomFetchPorts),
      BoomFetch.configure 3 none (some 4) 1 16 false 2 false = .ok (b, ports) := ⟨_, _, rfl⟩
  refine ⟨f, b, ports, boomPorts, configured, boomConfigured, ?_, ?_, ?_⟩
  · rintro ⟨counts, _⟩
    cases configured
    rcases (countsWrongResponses_iff _ _ (by decide)).mp counts with paying | some
    · exact absurd paying (by decide)
    · exact some _ rfl (by decide)
  · rintro ⟨counts, _⟩
    cases boomConfigured
    rcases (countsWrongChecks_iff _ _ (by decide)).mp counts with paying | unanimous
    · exact absurd paying (by decide)
    · exact absurd (unanimous.right (by decide +kernel)) (by decide +kernel)
  · intro counts
    cases boomConfigured
    rcases (countsWrongChecks_iff _ _ (by decide +kernel)).mp counts with paying | unanimous
    · exact absurd paying (by decide +kernel)
    · exact absurd (unanimous.wrong (by decide +kernel)) (by decide +kernel)

end Sinuca3.Guarantees
