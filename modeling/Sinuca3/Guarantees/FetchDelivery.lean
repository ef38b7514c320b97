import Sinuca3.Source.Engine.FetchStage

/-!
# Delivery to the fetch buffer

An answer of the engine waits for one cycle only. `Fetcher::Clock` returns before
`ClockFetch` in a penalty but for its last three cycles, and when the prediction is
not confirmed; an answer that waits in such a cycle is lost. Nothing else loses one.
-/
namespace Sinuca3.Guarantees
open Sinuca3.Source Lib

variable {ρ μ π : Type}

/-- What the engine put on the response connection was appended to the fetch buffer,
once and in order, up to what waits to be read, and no swap threw any away. -/
structure NothingLost (s : FetchStage (Engine ρ × List EngineEvent) μ π)
    (log : List StageEvent) : Prop where
  inOrder : delivered 0 s.fetch.2 =
    Fetcher.appended (fetcherLog log) ++ s.ports.fetch.readableResponses
  noneDiscarded : discarded log = []

/-- The fetcher does not return early in a cycle in which answers wait for it. -/
def TakesWaiting {φ : Type} (s : FetchStage φ μ π) (_ : Unit) : Prop :=
  s.ports.fetch.readableResponses ≠ [] → s.fetcher.returnsEarly s.ports = false

instance {φ : Type} (s : FetchStage φ μ π) (u : Unit) : Decidable (TakesWaiting s u) :=
  inferInstanceAs (Decidable (_ → _))

/-- What a cycle appends and what it discards, of the answers that wait in it. -/
theorem cycle_takes {φ : Type} (S : FetchStage.Servers φ μ π) {s : FetchStage φ μ π}
    (unsent : s.ports.fetch.sentRequests = []) :
    Fetcher.appended (fetcherLog (s.cycle S ()).2) =
        (if s.fetcher.returnsEarly s.ports then [] else s.ports.fetch.readableResponses) ∧
      discarded (s.cycle S ()).2 =
        (if s.fetcher.returnsEarly s.ports then s.ports.fetch.readableResponses else []) := by
  have quiet := (Fetcher.appended_slots_of_quiet (s.fetcher.clockBuffered_frame s.ports).2.2).1
  cases early : s.fetcher.returnsEarly s.ports with
  | true =>
    obtain ⟨_, _, _, events, unread⟩ := FetchStage.cycle_of_early S early unsent
    rw [events, unread]
    exact ⟨quiet, rfl⟩
  | false =>
    obtain ⟨_, _, _, events, unread⟩ := FetchStage.cycle_of_fetch S early unsent
    rw [events, unread, Fetcher.appended_append, Fetcher.appended_receptions]
    unfold FetchStage.buffered
    rw [quiet]
    exact ⟨rfl, rfl⟩

/-- A cycle discards nothing exactly when it takes what waits. -/
theorem cycle_discards_nothing_iff {φ : Type} (S : FetchStage.Servers φ μ π)
    {s : FetchStage φ μ π} (unsent : s.ports.fetch.sentRequests = []) :
    discarded (s.cycle S ()).2 = [] ↔ TakesWaiting s () := by
  rw [(cycle_takes S unsent).2]
  unfold TakesWaiting
  cases s.fetcher.returnsEarly s.ports <;> simp

section Runs

variable (R : TraceReader ρ) (bound : Nat)
  (instructionMemory : Server μ InstructionPacket InstructionPacket)
  (predictor : Server π PredictorPacket PredictorPacket)

/-- Between cycles nothing is under way to or from the engine but its answers, and as
long as none was discarded these are what it delivered and was not appended. -/
structure Delivering (s : FetchStage (Engine ρ × List EngineEvent) μ π)
    (log : List StageEvent) : Prop where
  unsent : s.ports.fetch.sentRequests = []
  unanswered : s.ports.fetch.sentResponses = []
  inOrder : discarded log = [] → delivered 0 s.fetch.2 =
    Fetcher.appended (fetcherLog log) ++ s.ports.fetch.readableResponses

theorem cycle_delivering {s : FetchStage (Engine ρ × List EngineEvent) μ π}
    {log : List StageEvent} (before : Delivering s log) :
    Delivering (s.cycle (engineServers R bound instructionMemory predictor) ()).1
      (log ++ (s.cycle (engineServers R bound instructionMemory predictor) ()).2) := by
  obtain ⟨unsent, unanswered, inOrder⟩ := before
  obtain ⟨unsent', unanswered', waiting, _⟩ :=
    FetchStage.cycle_fetch (engineServers R bound instructionMemory predictor) unsent
  obtain ⟨takes, discards⟩ :=
    cycle_takes (engineServers R bound instructionMemory predictor) unsent
  have served := (Engine.clock_serves R bound 0
    (s.fetch.1.setConnection 0 s.ports.fetch)).sentResponses
  have first : (s.fetch.1.setConnection 0 s.ports.fetch).connections 0 = s.ports.fetch := by
    simp [Engine.setConnection]
  rw [first, unanswered, List.nil_append] at served
  constructor
  · exact unsent'
  · exact unanswered'
  · intro none
    rw [discarded_append, List.append_eq_nil_iff, discards] at none
    rw [fetcherLog_append, Fetcher.appended_append, takes, waiting]
    change delivered 0 (s.fetch.2 ++ _) = _ ++ Connection.sentResponses (Engine.connections _ 0)
    rw [delivered_append, inOrder none.1, served]
    -- Nothing was discarded, so an early return found nothing waiting.
    cases early : s.fetcher.returnsEarly s.ports with
    | true =>
      have empty := none.2
      rw [if_pos early] at empty
      rw [empty]
      simp
    | false => simp

theorem configured_delivering {fetchSize fetchInterval misspredictPenalty : Option Int}
    {hasPredictor : Bool} {s : FetchStage (Engine ρ × List EngineEvent) μ π}
    (configured : s.Configured fetchSize fetchInterval misspredictPenalty hasPredictor)
    (fresh : s.fetch.2 = []) : Delivering s [] := by
  obtain ⟨size, _, _, _, _, _, _, ports⟩ := Fetcher.configure_eq configured
  have port := congrArg FetcherPorts.fetch ports
  dsimp only at port
  constructor
  · rw [port]
    rfl
  · rw [port]
    rfl
  · intro _
    rw [port, fresh]
    rfl

/-- For every engine, memory and predictor, and every configuration of the fetcher: in
a simulation of any length no instruction the engine delivered is lost if and only if
no cycle returns early while answers wait. -/
theorem fetch_stage_loses_nothing {fetchSize fetchInterval misspredictPenalty : Option Int}
    {hasPredictor : Bool} {s : FetchStage (Engine ρ × List EngineEvent) μ π}
    (configured : s.Configured fetchSize fetchInterval misspredictPenalty hasPredictor)
    (fresh : s.fetch.2 = []) (cycles : Nat) :
    NothingLost (s.simulate (engineServers R bound instructionMemory predictor) cycles).1
        (s.simulate (engineServers R bound instructionMemory predictor) cycles).2 ↔
      Machine.Meets (FetchStage.cycle (engineServers R bound instructionMemory predictor))
        TakesWaiting s (List.replicate cycles ()) := by
  have start := configured_delivering configured fresh
  have delivering : Delivering
      (s.simulate (engineServers R bound instructionMemory predictor) cycles).1
      (s.simulate (engineServers R bound instructionMemory predictor) cycles).2 := by
    unfold FetchStage.simulate
    apply Machine.run_induction
      (FetchStage.cycle (engineServers R bound instructionMemory predictor))
      (P := fun t _ log => Delivering t log)
    · exact start
    · intro t _ log _ before
      exact cycle_delivering R bound instructionMemory predictor before
  have discards : discarded
      (s.simulate (engineServers R bound instructionMemory predictor) cycles).2 = [] ↔
      Machine.Meets (FetchStage.cycle (engineServers R bound instructionMemory predictor))
        TakesWaiting s (List.replicate cycles ()) := by
    unfold FetchStage.simulate
    apply Machine.meets_iff_of_step _ TakesWaiting (fun t => t.ports.fetch.sentRequests = [])
      (fun log => discarded log = [])
    · rfl
    · intro log more
      rw [discarded_append, List.append_eq_nil_iff]
    · intro t _ unsent
      exact (FetchStage.cycle_fetch _ unsent).1
    · intro t _ unsent
      exact cycle_discards_nothing_iff _ unsent
    · exact start.unsent
  rw [← discards]
  constructor
  · exact NothingLost.noneDiscarded
  · intro none
    constructor
    · exact delivering.inOrder none
    · exact none

/-- Without a predictor the condition holds in every simulation. -/
theorem takesWaiting_without_predictor {φ : Type} (S : FetchStage.Servers φ μ π)
    {fetchSize fetchInterval misspredictPenalty : Option Int} {s : FetchStage φ μ π}
    (configured : s.Configured fetchSize fetchInterval misspredictPenalty false)
    (cycles : Nat) :
    Machine.Meets (FetchStage.cycle S) TakesWaiting s (List.replicate cycles ()) := by
  apply Machine.meets_of_invariant (FetchStage.cycle S) TakesWaiting FetchStage.Unpredicted
  · intro t _ without
    exact without.cycle S
  · intro t _ without _
    exact without.reaches
  · exact configured.unpredicted

end Runs

/-- With a request every second cycle and a penalty of three, the first answer is taken
in the last cycle of the penalty. -/
theorem fetch_stage_loses_nothing_interval_2 :
    NothingLost ((oneOctetStage 2 3).simulate sinucaServers 6).1
      ((oneOctetStage 2 3).simulate sinucaServers 6).2 :=
  (fetch_stage_loses_nothing sinucaTraceReader 16 simpleInstructionMemory
    hardwiredPredictor.toServer
    (show (oneOctetStage 2 3).Configured (some 2) (some 2) (some 3) true from rfl) rfl 6).mpr
    ⟨by decide +kernel, by decide +kernel, by decide +kernel, by decide +kernel,
      by decide +kernel, by decide +kernel, trivial⟩

/-- With a request every cycle and a penalty of two, the first answer waits in a cycle
in which no prediction has come, and the fetcher returns early. -/
theorem fetch_stage_loses_answer :
    (oneOctetStage 1 2).Configured (some 2) (some 1) (some 2) true ∧
    ((oneOctetStage 1 2).simulate sinucaServers 4).1.fetch.1.end_ = false ∧
    ((oneOctetStage 1 2).simulate sinucaServers 4).1.fetch.1.error = false ∧
    ¬ NothingLost ((oneOctetStage 1 2).simulate sinucaServers 4).1
      ((oneOctetStage 1 2).simulate sinucaServers 4).2 := by
  refine ⟨rfl, by decide +kernel, by decide +kernel, ?_⟩
  intro nothing
  have none := nothing.noneDiscarded
  revert none
  decide +kernel

end Sinuca3.Guarantees
