import Sinuca3.Guarantees.FetchBufferBound
import Sinuca3.Guarantees.FetchMatching
import Sinuca3.Source.StdComponents.Execution

/-!
# From the fetcher to the execution unit

The fetcher sends to an instruction memory that passes everything on to an execution unit.
Two cycles after an instruction was sent it is executed; none is lost, repeated or
overtaken, whatever is fetched from and whatever the predictor does. With a predictor that
keeps its queries in order, all that is buffered is executed in the end.
-/
namespace Sinuca3.Guarantees
open Sinuca3.Source Lib

section FirstCalls

/-- The responses to the predictor concern no instruction that is sent to the memory. -/
theorem checkResponses_storing (responses : List PredictorPacket) (i : Nat) (f : Fetcher) :
    (Fetcher.checkResponses responses i f).2.2.filterMap storing = [] := by
  induction responses generalizing i f with
  | nil => rfl
  | cons response responses ih => exact ih (i + 1) _

theorem clockSendBuffered_storing (f : Fetcher) (ports : FetcherPorts) :
    (f.clockSendBuffered ports).2.1.instructionMemory.sentRequests =
      ports.instructionMemory.sentRequests ++
        (f.clockSendBuffered ports).2.2.filterMap storing ∧
      (f.clockSendBuffered ports).2.1.instructionMemory.readableRequests =
        ports.instructionMemory.readableRequests := by
  obtain ⟨f', memory, sent, _, _, views⟩ := Fetcher.sendUnsent_eq id .setSentToMemory
    .sentToMemory (·.sentToMemory) f ports.instructionMemory rfl rfl
  have stores := fun entries : List FetchBufferEntry =>
    map_stages storing (fun entry => .sentToMemory entry.instruction)
      FetchBufferEntry.instruction (fun _ => rfl) entries
  have asks := fun entries : List FetchBufferEntry =>
    map_silent storing (fun entry => .sentToPredictor entry.instruction) (fun _ => rfl) entries
  unfold Fetcher.clockSendBuffered Fetcher.sendToMemory
  rw [sent]
  cases ports.predictor with
  | none =>
    dsimp only
    rw [stores]
    exact ⟨views.sentRequests, views.readableRequests⟩
  | some c =>
    obtain ⟨f'', predictor, queried, _⟩ := Fetcher.sendUnsent_eq Fetcher.query
      .setSentToPredictor .sentToPredictor (·.sentToPredictor) f' c rfl rfl
    unfold Fetcher.sendToPredictor
    dsimp only
    rw [queried, List.filterMap_append, stores, asks, List.append_nil]
    exact ⟨views.sentRequests, views.readableRequests⟩

theorem clockCheckPredictor_storing (f : Fetcher) (ports : FetcherPorts) :
    (f.clockCheckPredictor ports).2.2.1.instructionMemory = ports.instructionMemory ∧
      (f.clockCheckPredictor ports).2.2.2.filterMap storing = [] := by
  unfold Fetcher.clockCheckPredictor
  split
  · exact ⟨rfl, rfl⟩
  · dsimp only
    split
    · exact ⟨rfl, rfl⟩
    · exact ⟨rfl, checkResponses_storing _ 0 f⟩

/-- The first three calls of the fetcher's clock put on the connection to the memory what
they report as sent. -/
theorem clockBuffered_storing (f : Fetcher) (ports : FetcherPorts) :
    (f.clockBuffered ports).2.2.1.instructionMemory.sentRequests =
      ports.instructionMemory.sentRequests ++
        (f.clockBuffered ports).2.2.2.filterMap storing ∧
      (f.clockBuffered ports).2.2.1.instructionMemory.readableRequests =
        ports.instructionMemory.readableRequests := by
  obtain ⟨sent, kept⟩ := clockSendBuffered_storing f ports
  obtain ⟨memory, checks⟩ := clockCheckPredictor_storing (f.clockSendBuffered ports).1
    (f.clockSendBuffered ports).2.1
  have unbuffers := map_silent storing
    (fun k => .unbuffered
      (((f.clockSendBuffered ports).1.clockCheckPredictor
        (f.clockSendBuffered ports).2.1).2.1.fetchBuffer k)) (fun _ => rfl)
  unfold Fetcher.clockBuffered Fetcher.clockUnbuffer
  dsimp only
  rw [memory, List.filterMap_append, List.filterMap_append, checks, unbuffers, List.append_nil,
    List.append_nil]
  exact ⟨sent, kept⟩

end FirstCalls

section Path

variable {φ π : Type}

/-- The components of `fetcher_test.yaml`, with any engine and any predictor. -/
def executingServers (fetch : Server φ Int InstructionPacket)
    (predictor : Server π PredictorPacket PredictorPacket) :
    FetchStage.Servers φ ExecutingMemory π where
  fetch := fetch
  instructionMemory := ExecutingMemory.server
  predictor := predictor

/-- What was sent to the memory is executed, or waits for the unit, or for the memory. -/
structure OnTheWay (s : FetchStage φ ExecutingMemory π) (log : List StageEvent) : Prop where
  fetchUnsent : s.ports.fetch.sentRequests = []
  memoryUnsent : s.ports.instructionMemory.sentRequests = []
  linked : ∃ toUnit, s.instructionMemory.Linked toUnit
  path : s.instructionMemory.unit.executed ++ s.instructionMemory.forUnit ++
    s.ports.instructionMemory.readableRequests = (fetcherLog log).filterMap storing
  executions : s.instructionMemory.unit.numberOfInstructions =
    s.instructionMemory.unit.executed.length
  requests : s.instructionMemory.memory.numberOfRequests =
    (s.instructionMemory.unit.executed ++ s.instructionMemory.forUnit).length

/-- Taking what was fetched sends nothing to the memory. -/
theorem takings_storing {μ : Type} (s : FetchStage φ μ π) (usage : Nat) :
    (s.takings usage).filterMap storing = [] := by
  unfold FetchStage.takings
  split
  · rfl
  · exact (receptions_stages usage _).1

/-- The memory is clocked with what the first three calls of the fetcher put on its
connection. -/
theorem cycle_memory {μ : Type} (S : FetchStage.Servers φ μ π) {s : FetchStage φ μ π}
    (unsent : s.ports.fetch.sentRequests = []) :
    (s.cycle S ()).1.instructionMemory =
      (S.instructionMemory.clock s.instructionMemory
        s.buffered.2.2.1.instructionMemory).1 := by
  obtain ⟨f', fetch', events, clocked, _⟩ := FetchStage.clocked_fetch S unsent
  unfold FetchStage.cycle
  rw [clocked]

variable (fetch : Server φ Int InstructionPacket)
  (predictor : Server π PredictorPacket PredictorPacket)

/-- One cycle moves everything on by one place. -/
theorem OnTheWay.cycle {s : FetchStage φ ExecutingMemory π} {log : List StageEvent}
    (before : OnTheWay s log) :
    OnTheWay (s.cycle (executingServers fetch predictor) ()).1
        (log ++ (s.cycle (executingServers fetch predictor) ()).2) ∧
      (s.cycle (executingServers fetch predictor) ()).1.instructionMemory.unit.executed =
        s.instructionMemory.unit.executed ++ s.instructionMemory.forUnit ∧
      (s.cycle (executingServers fetch predictor) ()).1.instructionMemory.forUnit =
        s.ports.instructionMemory.readableRequests := by
  obtain ⟨toUnit, linked⟩ := before.linked
  have kept : s.buffered.2.2.1.instructionMemory.readableRequests =
      s.ports.instructionMemory.readableRequests :=
    (clockBuffered_storing s.fetcher s.ports).2
  have queued : s.buffered.2.2.1.instructionMemory.sentRequests =
      s.buffered.2.2.2.filterMap storing := by
    have sent := (clockBuffered_storing s.fetcher s.ports).1
    rw [before.memoryUnsent, List.nil_append] at sent
    exact sent
  obtain ⟨port, _⟩ :=
    FetchStage.cycle_ports (executingServers fetch predictor) before.fetchUnsent
  obtain ⟨_, events, _⟩ :=
    FetchStage.cycle_taken (executingServers fetch predictor) before.fetchUnsent
  obtain ⟨unsent, _⟩ :=
    FetchStage.cycle_fetch (executingServers fetch predictor) before.fetchUnsent
  have state := cycle_memory (executingServers fetch predictor) before.fetchUnsent
  obtain ⟨toUnit', linked', passed, requests, unit⟩ :=
    linked.clock_eq s.buffered.2.2.1.instructionMemory
  have executed : (s.cycle (executingServers fetch predictor) ()).1.instructionMemory.unit =
      { numberOfInstructions := s.instructionMemory.unit.numberOfInstructions +
          toUnit.readableRequests.length
        executed := s.instructionMemory.unit.executed ++ toUnit.readableRequests } := by
    rw [state]
    exact unit
  have forUnit : (s.cycle (executingServers fetch predictor) ()).1.instructionMemory.forUnit =
      s.ports.instructionMemory.readableRequests := by
    rw [state, ← kept, ← passed]
    exact linked'.forUnit
  have forMemory : (s.cycle (executingServers fetch predictor)
      ()).1.ports.instructionMemory.readableRequests = s.buffered.2.2.2.filterMap storing := by
    rw [port, Connection.readableRequests_swap, ← queued]
    exact ExecutingMemory.server.sentRequests _ _
  have stored : (fetcherLog (s.cycle (executingServers fetch predictor) ()).2).filterMap storing =
      s.buffered.2.2.2.filterMap storing := by
    rw [events, List.filterMap_append, takings_storing, List.append_nil]
  rw [executed, forUnit, linked.forUnit]
  refine ⟨⟨unsent, ?_, ⟨toUnit', ?_⟩, ?_, ?_, ?_⟩, rfl, rfl⟩
  · rw [port]
    exact Connection.sentRequests_swap _
  · rw [state]
    exact linked'
  · rw [executed, forUnit, forMemory, fetcherLog_append, List.filterMap_append, stored,
      ← before.path, linked.forUnit]
  · rw [executed, before.executions]
    exact List.length_append.symm
  · rw [executed, forUnit, state, List.length_append, ← linked.forUnit, ← before.requests, ← kept]
    exact requests

variable {fetchSize fetchInterval misspredictPenalty : Option Int} {hasPredictor : Bool}
  {s : FetchStage φ ExecutingMemory π}

theorem onTheWay_configured
    (configured : s.Configured fetchSize fetchInterval misspredictPenalty hasPredictor)
    (start : s.instructionMemory = .configured) : OnTheWay s [] := by
  obtain ⟨size, interval, penalty, _, _, _, fetcher, ports⟩ := Fetcher.configure_eq configured
  refine ⟨?_, ?_, ?_, ?_, ?_, ?_⟩
  · rw [ports]
    rfl
  · rw [ports]
    rfl
  · rw [start]
    exact ⟨_, ExecutingMemory.linked_configured⟩
  · rw [start, ports]
    rfl
  · rw [start]
    rfl
  · rw [start]
    rfl

theorem onTheWay_simulate
    (configured : s.Configured fetchSize fetchInterval misspredictPenalty hasPredictor)
    (start : s.instructionMemory = .configured) (cycles : Nat) :
    OnTheWay (s.simulate (executingServers fetch predictor) cycles).1
      (s.simulate (executingServers fetch predictor) cycles).2 := by
  apply FetchStage.simulate_induction (executingServers fetch predictor)
    (P := fun t log => OnTheWay t log)
  · exact onTheWay_configured configured start
  · intro t log before
    exact (before.cycle fetch predictor).1

/-- Each cycle is one more at the end. -/
theorem simulate_concat {μ : Type} (S : FetchStage.Servers φ μ π) (s : FetchStage φ μ π)
    (cycles : Nat) :
    (s.simulate S (cycles + 1)).1 = ((s.simulate S cycles).1.cycle S ()).1 := by
  rw [FetchStage.simulate_add]
  rfl

/-- The way takes two cycles. -/
theorem executed_eq_stored
    (configured : s.Configured fetchSize fetchInterval misspredictPenalty hasPredictor)
    (start : s.instructionMemory = .configured) (cycles : Nat) :
    (s.simulate (executingServers fetch predictor) cycles).1.instructionMemory.unit.executed =
      (fetcherLog (s.simulate (executingServers fetch predictor) (cycles - 2)).2).filterMap
        storing := by
  have way := onTheWay_simulate fetch predictor configured start
  rcases cycles with _ | _ | cycles
  · change s.instructionMemory.unit.executed = []
    rw [start]
    rfl
  · rw [simulate_concat, ((way 0).cycle fetch predictor).2.1]
    change s.instructionMemory.unit.executed ++ s.instructionMemory.forUnit = []
    rw [start]
    rfl
  · rw [simulate_concat, ((way (cycles + 1)).cycle fetch predictor).2.1, simulate_concat,
      ((way cycles).cycle fetch predictor).2.1, ((way cycles).cycle fetch predictor).2.2]
    exact (way cycles).path

end Path

section InOrder

variable {φ π : Type} {fetchSize fetchInterval misspredictPenalty : Option Int}
  {s : FetchStage φ ExecutingMemory π}

/-- With a predictor that keeps its queries in order. -/
def executingPredicted (fetch : Server φ Int InstructionPacket) (predictor : InOrderPredictor π) :
    FetchStage.PredictedServers φ ExecutingMemory π where
  fetch := fetch
  instructionMemory := ExecutingMemory.server
  predictor := predictor

theorem ledger_simulate {μ : Type} (S : FetchStage.PredictedServers φ μ π)
    {s : FetchStage φ μ π}
    (configured : s.Configured fetchSize fetchInterval misspredictPenalty true)
    (idle : S.predictor.pending s.predictor = []) (cycles : Nat) :
    ∃ c asked fresh, (s.simulate S.servers cycles).1.Predicted S.predictor c asked fresh ∧
      Ledger asked fresh (s.simulate S.servers cycles).1 (s.simulate S.servers cycles).2 := by
  apply FetchStage.simulate_induction S.servers
    (P := fun t log => ∃ c asked fresh,
      t.Predicted S.predictor c asked fresh ∧ Ledger asked fresh t log)
  · have predicted := configured.predicted S.predictor idle
    refine ⟨_, [], [], predicted, ⟨⟨?_, ?_, ?_, ?_, ?_, ?_, ?_⟩, rfl, rfl, rfl, rfl⟩⟩
    · exact follows_nil
    · exact follows_nil
    · exact follows_nil
    · exact follows_nil
    · exact follows_nil
    · exact Machine.explained_nil _
    · rw [predicted.predictor]
      rfl
  · rintro t log ⟨c, asked, fresh, predicted, ledger⟩
    obtain ⟨c', predicted', ledger', _⟩ := cycle_ledger S predicted ledger
    exact ⟨c', _, _, predicted', ledger'⟩

/-- For every component fetched from, every in-order predictor and every configuration of
the fetcher, after any number of cycles that stay within the fetch buffer: the unit has
executed what was sent to the memory two cycles before, which is a front part of what was
buffered, and counts it. All that is buffered is executed some time later, in a run that
never leaves the buffer. -/
theorem fetched_instructions_executed (fetch : Server φ Int InstructionPacket)
    (predictor : InOrderPredictor π)
    (configured : s.Configured fetchSize fetchInterval misspredictPenalty true)
    (start : s.instructionMemory = .configured)
    (idle : predictor.pending s.predictor = []) (cycles : Nat)
    (_within : InBounds s.fetcher.fetchSize
      (s.simulate (executingPredicted fetch predictor).servers cycles).2) :
    let after := s.simulate (executingPredicted fetch predictor).servers
    let executed n := (after n).1.instructionMemory.unit.executed
    executed cycles = (fetcherLog (after (cycles - 2)).2).filterMap storing ∧
      executed cycles <+: (fetcherLog (after cycles).2).filterMap appending ∧
      (after cycles).1.instructionMemory.unit.numberOfInstructions = (executed cycles).length ∧
      ((∀ n, InBounds s.fetcher.fetchSize (after n).2) → ∃ more,
        (fetcherLog (after cycles).2).filterMap appending <+: executed (cycles + more)) := by
  intro after executed
  have way := onTheWay_simulate fetch predictor.toServer configured start
  have stored : ∀ n, executed n = (fetcherLog (after (n - 2)).2).filterMap storing :=
    executed_eq_stored fetch predictor.toServer configured start
  have ledgers := ledger_simulate (executingPredicted fetch predictor) configured idle
  obtain ⟨c, asked, fresh, predicted, ledger⟩ := ledgers cycles
  refine ⟨stored cycles, ?_, (way cycles).executions, fun _ => ?_⟩
  · have path := (way cycles).path
    rw [List.append_assoc] at path
    refine (List.IsPrefix.trans ⟨_, path⟩ ?_ : _)
    exact ⟨fresh, ledger.stored⟩
  · obtain ⟨more, later⟩ := eventually_stored (executingPredicted fetch predictor) fresh.length
      predicted ledger (List.prefix_refl fresh) (Nat.le_refl _)
    refine ⟨more + 2, ?_⟩
    rw [stored, ← ledger.stored]
    have same : cycles + (more + 2) - 2 = cycles + more := by omega
    rw [same]
    change _ <+: (fetcherLog (s.simulate _ (cycles + more)).2).filterMap storing
    rw [FetchStage.simulate_add]
    exact later

/-- The stage that fetches a trace of one instruction of an octet. -/
def octetStage : FetchStage (Engine SinucaTraceReader × List EngineEvent) ExecutingMemory
    HardwiredPredictor :=
  { oneOctetStage 2 3 with instructionMemory := .configured }

theorem octet_executed :
    let after := octetStage.simulate
      (executingPredicted (Engine.server sinucaTraceReader 16) hardwiredPredictor).servers
    (after 9).1.instructionMemory.unit.executed =
        (fetcherLog (after 7).2).filterMap storing ∧
      (after 9).1.instructionMemory.unit.numberOfInstructions = 1 := by
  have configured : octetStage.Configured (some 2) (some 2) (some 3) true := rfl
  obtain ⟨executed, _, counted, _⟩ := fetched_instructions_executed
    (Engine.server sinucaTraceReader 16) hardwiredPredictor configured rfl rfl 9 (by decide +kernel)
  exact ⟨executed, counted.trans (by decide +kernel)⟩

end InOrder

end Sinuca3.Guarantees
