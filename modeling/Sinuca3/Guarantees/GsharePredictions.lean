import Sinuca3.Guarantees.GsharePairing

/-!
# Wrong predictions of the gshare predictor

An update is judged by what the counter says when it comes. The prediction of the query it
belongs to was made earlier, and updates of other queries may have turned the counter since.
-/
namespace Sinuca3.Guarantees
open Sinuca3.Source Lib

inductive PredictionEvent where
  /-- A query is answered with a prediction. -/
  | sent (taken : Bool)
  /-- An update says which way the branch went. -/
  | reported (taken : Bool)
  deriving DecidableEq

def sentPredictions (log : List PredictionEvent) : List Bool :=
  log.filterMap fun
    | .sent taken => some taken
    | .reported _ => none

def reportedDirections (log : List PredictionEvent) : List Bool :=
  log.filterMap fun
    | .sent _ => none
    | .reported taken => some taken

/-- How many updates report another direction than was sent for the query with their number. -/
def wrongPredictions (log : List PredictionEvent) : Nat :=
  ((sentPredictions log).zip (reportedDirections log)).countP fun (sent, taken) => sent ≠ taken

/-- The prediction in the packet that `Query` prepares. -/
def sentPrediction (g : GsharePredictor) (packet : PredictorPacket) : Bool :=
  (g.query packet packet.instruction.staticInfo.instAddress).2.type = .responseTake

/-- The predictor, with the predictions that wait for their updates. -/
def predictionStep (s : GsharePredictor × List Bool) (packet : PredictorPacket) :
    (GsharePredictor × List Bool) × List PredictionEvent :=
  let g := (s.1.respond packet).1
  match packet.type with
  | .requestQuery =>
    let sent := sentPrediction s.1 packet
    ((g, s.2 ++ [sent]), [.sent sent])
  | .requestDirectionUpdate => ((g, s.2.tail), [.reported packet.taken])
  | _ => ((g, s.2), [])

/-- What the counter says that an update is about to train, if there is an index for it. -/
def frontPrediction (g : GsharePredictor) : Option Bool :=
  if g.dequeueIndex.1 then none else some g.dequeueIndex.2.entry.getPrediction

/-- An update finds the counter saying what was sent for its query; one whose index was
lost reports what was sent. -/
def JudgedAsSent (s : GsharePredictor × List Bool) (packet : PredictorPacket) : Prop :=
  packet.type = .requestDirectionUpdate → ∀ sent ∈ s.2.head?,
    (frontPrediction s.1).getD packet.taken = sent

theorem updateEntry_wrongPredictions (g : GsharePredictor) :
    g.updateEntry.numberOfWrongPredictions = g.numberOfWrongPredictions +
      if g.entry.getPrediction ≠ g.wasBranchTaken then 1 else 0 := by
  unfold GsharePredictor.updateEntry
  dsimp only
  split <;> rfl

/-- Only an update that finds its index in the queue may count. -/
theorem update_wrongPredictions (g : GsharePredictor) :
    g.update.numberOfWrongPredictions = g.numberOfWrongPredictions +
      if (frontPrediction g).getD g.wasBranchTaken ≠ g.wasBranchTaken then 1 else 0 := by
  have kept : g.dequeueIndex.2.wasBranchTaken = g.wasBranchTaken ∧
      g.dequeueIndex.2.numberOfWrongPredictions = g.numberOfWrongPredictions := by
    unfold GsharePredictor.dequeueIndex
    split <;> exact ⟨rfl, rfl⟩
  unfold GsharePredictor.update frontPrediction
  dsimp only
  by_cases empty : g.dequeueIndex.1 = true
  · rw [if_pos empty, if_pos empty, kept.2]
    simp
  · rw [if_neg empty, if_neg empty]
    change g.dequeueIndex.2.updateEntry.numberOfWrongPredictions = _
    rw [updateEntry_wrongPredictions, kept.1, kept.2]
    rfl

theorem frontPrediction_taken (g : GsharePredictor) (taken : Bool) :
    frontPrediction { g with wasBranchTaken := taken } = frontPrediction g := by
  unfold frontPrediction GsharePredictor.dequeueIndex
  dsimp only
  cases g.indexQueue.dequeue <;> rfl

theorem respond_wrongPredictions (g : GsharePredictor) (packet : PredictorPacket) :
    (g.respond packet).1.numberOfWrongPredictions = g.numberOfWrongPredictions +
      if packet.type = .requestDirectionUpdate ∧
        (frontPrediction g).getD packet.taken ≠ packet.taken then 1 else 0 := by
  unfold GsharePredictor.respond
  cases kind : packet.type with
  | requestDirectionUpdate =>
    have judged := update_wrongPredictions { g with wasBranchTaken := packet.taken }
    rw [frontPrediction_taken] at judged
    simpa using judged
  | requestQuery =>
    unfold GsharePredictor.query GsharePredictor.enqueueIndex
    dsimp only
    split <;> split <;> rfl
  | _ => simp

/-- A report joins the prediction that has waited longest. -/
theorem zip_report {sent reported rest : List Bool} {prediction : Bool}
    (waiting : sent.drop reported.length = prediction :: rest) (taken : Bool) :
    sent.zip (reported ++ [taken]) = sent.zip reported ++ [(prediction, taken)] := by
  induction reported generalizing sent with
  | nil =>
    rw [List.length_nil, List.drop_zero] at waiting
    simp [waiting]
  | cons direction reported ih =>
    cases sent with
    | nil => simp at waiting
    | cons first sent => simpa using ih (by simpa using waiting)

/-- A prediction that is not judged yet changes nothing. -/
theorem zip_sent {sent reported : List Bool} (enough : reported.length ≤ sent.length)
    (prediction : Bool) : (sent ++ [prediction]).zip reported = sent.zip reported := by
  induction reported generalizing sent with
  | nil => simp
  | cons direction reported ih =>
    cases sent with
    | nil => simp at enough
    | cons first sent => simpa using ih (by simpa using enough)

/-- The predictions waiting are those sent and not reported, of which there are as many as
queries and updates say. -/
structure Waiting (waiting : List Bool) (packets : List PredictorPacket)
    (log : List PredictionEvent) : Prop where
  waiting : waiting = (sentPredictions log).drop (reportedDirections log).length
  sent : (sentPredictions log).length = packets.countP (·.type = .requestQuery)
  reported : (reportedDirections log).length = packets.countP (·.type = .requestDirectionUpdate)
  enough : (reportedDirections log).length ≤ (sentPredictions log).length

theorem NeverAhead.init {packets : List PredictorPacket} {packet : PredictorPacket}
    (never : NeverAhead (packets ++ [packet])) : NeverAhead packets := by
  intro k inside
  have early := never k (inside.trans (by simp))
  rwa [List.take_append_of_le_length inside] at early

theorem NeverAhead.last {packets : List PredictorPacket} (never : NeverAhead packets) :
    packets.countP (·.type = .requestDirectionUpdate) ≤
      packets.countP (·.type = .requestQuery) := by
  have whole := never packets.length (Nat.le_refl _)
  rwa [List.take_length] at whole

section Step

variable {s : GsharePredictor × List Bool} {packets : List PredictorPacket}
  {log : List PredictionEvent} {packet : PredictorPacket}

theorem Waiting.query (waits : Waiting s.2 packets log) (query : packet.type = .requestQuery) :
    Waiting (predictionStep s packet).1.2 (packets ++ [packet])
        (log ++ (predictionStep s packet).2) ∧
      wrongPredictions (log ++ (predictionStep s packet).2) = wrongPredictions log := by
  obtain ⟨waiting, sent, reported, enough⟩ := waits
  unfold predictionStep
  rw [query]
  dsimp only
  have sends : sentPredictions (log ++ [.sent (sentPrediction s.1 packet)]) =
      sentPredictions log ++ [sentPrediction s.1 packet] := by
    simp [sentPredictions]
  have reports : reportedDirections (log ++ [.sent (sentPrediction s.1 packet)]) =
      reportedDirections log := by
    simp [reportedDirections]
  constructor
  · refine ⟨?_, ?_, ?_, ?_⟩
    · rw [sends, reports, List.drop_append_of_le_length enough, waiting]
    · rw [sends, List.length_append, sent]
      simp [query]
    · rw [reports, reported]
      simp [query]
    · rw [sends, reports, List.length_append]
      omega
  · unfold wrongPredictions
    rw [sends, reports, zip_sent enough]

theorem Waiting.update (waits : Waiting s.2 packets log) (never : NeverAhead (packets ++ [packet]))
    (update : packet.type = .requestDirectionUpdate) :
    Waiting (predictionStep s packet).1.2 (packets ++ [packet])
        (log ++ (predictionStep s packet).2) ∧
      ∃ prediction, s.2.head? = some prediction ∧
        wrongPredictions (log ++ (predictionStep s packet).2) =
          wrongPredictions log + if prediction ≠ packet.taken then 1 else 0 := by
  obtain ⟨waiting, sent, reported, enough⟩ := waits
  have last := never.last
  unfold predictionStep
  rw [update]
  dsimp only
  have sends : sentPredictions (log ++ [.reported packet.taken]) = sentPredictions log := by
    simp [sentPredictions]
  have reports : reportedDirections (log ++ [.reported packet.taken]) =
      reportedDirections log ++ [packet.taken] := by
    simp [reportedDirections]
  have more : (reportedDirections log).length < (sentPredictions log).length := by
    simp only [List.countP_append, List.countP_cons, List.countP_nil, update, decide_true,
      if_true] at last
    rw [sent, reported]
    exact Nat.lt_of_succ_le (by simpa using last)
  constructor
  · refine ⟨?_, ?_, ?_, ?_⟩
    · rw [sends, reports, waiting, List.tail_drop, List.length_append]
      rfl
    · rw [sends, sent]
      simp [update]
    · rw [reports, List.length_append, reported]
      simp [update]
    · rw [sends, reports, List.length_append]
      exact more
  · obtain ⟨prediction, rest, queue⟩ : ∃ prediction rest, s.2 = prediction :: rest := by
      rw [waiting]
      exact List.exists_cons_of_length_pos (by rw [List.length_drop]; omega)
    refine ⟨prediction, by rw [queue]; rfl, ?_⟩
    unfold wrongPredictions
    rw [waiting] at queue
    rw [sends, reports, zip_report queue, List.countP_append]
    simp

theorem Waiting.other (waits : Waiting s.2 packets log) (notQuery : packet.type ≠ .requestQuery)
    (notUpdate : packet.type ≠ .requestDirectionUpdate) :
    Waiting (predictionStep s packet).1.2 (packets ++ [packet])
        (log ++ (predictionStep s packet).2) ∧
      wrongPredictions (log ++ (predictionStep s packet).2) = wrongPredictions log := by
  have silent : (predictionStep s packet).1.2 = s.2 ∧ (predictionStep s packet).2 = [] := by
    unfold predictionStep
    cases kind : packet.type <;> simp_all
  rw [silent.1, silent.2, List.append_nil]
  refine ⟨⟨waits.waiting, ?_, ?_, waits.enough⟩, rfl⟩
  · rw [waits.sent]
    simp [notQuery]
  · rw [waits.reported]
    simp [notUpdate]

theorem Waiting.step (waits : Waiting s.2 packets log) (never : NeverAhead (packets ++ [packet])) :
    Waiting (predictionStep s packet).1.2 (packets ++ [packet])
      (log ++ (predictionStep s packet).2) := by
  by_cases update : packet.type = .requestDirectionUpdate
  · exact (waits.update never update).1
  · by_cases query : packet.type = .requestQuery
    · exact (waits.query query).1
    · exact (waits.other query update).1

/-- What is counted stays right exactly where an update is judged as sent. -/
theorem Waiting.counts (waits : Waiting s.2 packets log)
    (never : NeverAhead (packets ++ [packet]))
    (right : s.1.numberOfWrongPredictions = wrongPredictions log) :
    (predictionStep s packet).1.1.numberOfWrongPredictions =
      wrongPredictions (log ++ (predictionStep s packet).2) ↔ JudgedAsSent s packet := by
  have counts : (predictionStep s packet).1.1 = (s.1.respond packet).1 := by
    unfold predictionStep
    dsimp only
    split <;> rfl
  rw [counts, respond_wrongPredictions, right]
  unfold JudgedAsSent
  by_cases update : packet.type = .requestDirectionUpdate
  · obtain ⟨_, prediction, first, wrong⟩ := waits.update never update
    rw [wrong, first]
    simp only [update, true_and, Option.mem_some_iff, forall_eq', true_implies,
      Nat.add_left_cancel_iff]
    cases (frontPrediction s.1).getD packet.taken <;> cases prediction <;>
      cases packet.taken <;> decide
  · have same : wrongPredictions (log ++ (predictionStep s packet).2) = wrongPredictions log := by
      by_cases query : packet.type = .requestQuery
      · exact (waits.query query).2
      · exact (waits.other query update).2
    rw [same]
    simp [update]

end Step

theorem waiting_run (g : GsharePredictor) (packets : List PredictorPacket)
    (never : NeverAhead packets) :
    Waiting (Machine.run predictionStep (g, []) packets).1.2 packets
      (Machine.run predictionStep (g, []) packets).2 := by
  induction packets using List.reverseRecOn with
  | nil => exact ⟨rfl, rfl, rfl, Nat.le_refl _⟩
  | append_singleton packets packet ih =>
    rw [Machine.run_concat]
    exact (ih never.init).step never

theorem wrongPredictions_iff {numberOfEntries : Int} {indexQueueSize : Option Int}
    {sendTo : Bool} {g : GsharePredictor}
    (configured : GsharePredictor.configure numberOfEntries indexQueueSize sendTo = .ok g)
    (packets : List PredictorPacket) (never : NeverAhead packets) :
    (∀ js, js <+: packets →
        (Machine.run predictionStep (g, []) js).1.1.numberOfWrongPredictions =
          wrongPredictions (Machine.run predictionStep (g, []) js).2) ↔
      Machine.Meets predictionStep JudgedAsSent (g, []) packets := by
  induction packets using List.reverseRecOn with
  | nil =>
    refine iff_of_true (fun js early => ?_) trivial
    rw [List.prefix_nil.mp early]
    obtain ⟨_, _, rfl⟩ := GsharePredictor.configure_eq configured
    rfl
  | append_singleton packets packet ih =>
    rw [Machine.forall_prefix_concat, Machine.meets_concat, ← ih never.init]
    refine and_congr_right fun before => ?_
    rw [Machine.run_concat]
    exact (waiting_run g packets never.init).counts never
      (before packets (List.prefix_refl packets))

/-- For every number of entries and queue size that `Configure` accepts and every sequence
of requests in which no update comes before its query: where the queue is allocated it is
not written outside, and the wrong predictions counted at every point are the updates that
report another direction than was sent for their query, if and only if every update finds
the counter still saying what was sent. With any other size that is not zero some queries
write outside. -/
theorem gshare_wrong_predictions {numberOfEntries : Int} {indexQueueSize : Option Int}
    {sendTo : Bool} {g : GsharePredictor}
    (configured : GsharePredictor.configure numberOfEntries indexQueueSize sendTo = .ok g) :
    (∀ packets, QueueFits indexQueueSize packets → NeverAhead packets →
      QueueWritten indexQueueSize packets g ∧
      ((∀ js, js <+: packets →
          (Machine.run predictionStep (g, []) js).1.1.numberOfWrongPredictions =
            wrongPredictions (Machine.run predictionStep (g, []) js).2) ↔
        Machine.Meets predictionStep JudgedAsSent (g, []) packets)) ∧
    (asInt (indexQueueSize.getD 1) ≠ 0 →
      ((∀ packets, QueueInside indexQueueSize packets) ↔
        CircularBufferExtent.Fits (asInt (indexQueueSize.getD 1)) 8)) :=
  ⟨fun packets fits never =>
    ⟨fits.written configured, wrongPredictions_iff configured packets never⟩, queueInside_iff⟩

instance (s : GsharePredictor × List Bool) (packet : PredictorPacket) :
    Decidable (JudgedAsSent s packet) :=
  inferInstanceAs (Decidable (_ → ∀ sent ∈ s.2.head?, _))

/-- All three branches are predicted taken and the second is not, which is counted. -/
theorem gshare_wrong_predictions_of_three :
    wrongPredictions (Machine.run predictionStep (fourEntries, []) threeBranches).2 = 1 ∧
      (Machine.run predictionStep (fourEntries, []) threeBranches).1.1.numberOfWrongPredictions =
        wrongPredictions (Machine.run predictionStep (fourEntries, []) threeBranches).2 := by
  have configured : GsharePredictor.configure 4 none false = .ok fourEntries := rfl
  have fits : QueueFits none threeBranches := ⟨by decide, by decide⟩
  have never : NeverAhead threeBranches := by
    unfold NeverAhead
    decide
  obtain ⟨_, counted⟩ := (gshare_wrong_predictions configured).1 threeBranches fits never
  exact ⟨by decide, counted.mpr (by decide) threeBranches (List.prefix_refl _)⟩

/-- At every point no more queries wait for their updates than the queue is to hold. -/
def FewWaiting (indexQueueSize : Nat) (packets : List PredictorPacket) : Prop :=
  ∀ k ≤ packets.length, (packets.take k).countP (·.type = .requestQuery) ≤
    (packets.take k).countP (·.type = .requestDirectionUpdate) + indexQueueSize

/-- Two queries for one address, and then two updates that say not taken. -/
def twoMisses : List PredictorPacket := [queryFor 1, queryFor 1, notTakenUpdate, notTakenUpdate]

/-- Both queries are answered taken; the first update turns the counter, and the second is
not counted. -/
theorem gshare_second_miss_uncounted :
    ∃ g, GsharePredictor.configure 4 (some 2) false = .ok g ∧
      NeverAhead twoMisses ∧ FewWaiting 2 twoMisses ∧
      (Machine.run predictionStep (g, []) twoMisses).1.1.numberOfWrongPredictions = 1 ∧
      wrongPredictions (Machine.run predictionStep (g, []) twoMisses).2 = 2 := by
  refine ⟨_, rfl, ?_, ?_, by decide, by decide⟩
  · unfold NeverAhead
    decide
  · unfold FewWaiting
    decide

end Sinuca3.Guarantees
