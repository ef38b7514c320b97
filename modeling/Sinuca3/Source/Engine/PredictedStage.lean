import Sinuca3.Source.Engine.FetchStage
import Sinuca3.Source.StdComponents.AlignedBuffer

/-!
# The fetch stage with an in-order predictor

Between cycles the entries asked about are, in order, those whose response waits, those
the predictor keeps and those whose query it will read next. A cycle lets the first of
these leave and asks about what was fetched in the last one.
-/
namespace Sinuca3.Source
open Lib

namespace FetchStage

variable {φ μ π : Type}

/-- A stage with a predictor that keeps its queries in order. -/
structure PredictedServers (φ μ π : Type) where
  fetch : Server φ Int InstructionPacket
  instructionMemory : Server μ InstructionPacket InstructionPacket
  predictor : InOrderPredictor π

def PredictedServers.servers (S : PredictedServers φ μ π) : Servers φ μ π :=
  { fetch := S.fetch, instructionMemory := S.instructionMemory,
    predictor := S.predictor.toServer }

/-- The stage between cycles, with the connection to its predictor, the instructions
asked about and those fetched since. -/
structure Predicted (P : InOrderPredictor π) (s : FetchStage φ μ π) (c : PredictorConnection)
    (asked fresh : List InstructionPacket) : Prop where
  predictor : s.ports.predictor = some c
  checks : s.fetcher.flagsToCheck = { sentToMemory := true, predicted := true }
  fetchUnsent : s.ports.fetch.sentRequests = []
  unsent : s.ports.instructionMemory.sentRequests = [] ∧ c.sentRequests = []
  unanswered : c.sentResponses = []
  sameSize : s.ports.instructionMemory.bufferSize = c.bufferSize
  queries : ∀ q ∈ c.readableRequests, q.type = .requestQuery
  shape : s.fetcher.contents = Fetcher.aligned asked fresh
  outstanding : asked = c.readableResponses.map PredictorPacket.instruction ++
    (P.pending s.predictor ++ c.readableRequests.map PredictorPacket.instruction)

theorem Predicted.enough {P : InOrderPredictor π} {s : FetchStage φ μ π}
    {c : PredictorConnection} {asked fresh : List InstructionPacket}
    (before : Predicted P s c asked fresh) : c.readableResponses.length ≤ asked.length := by
  rw [before.outstanding, List.length_append, List.length_map]
  omega

/-- The stage as `Configure` left it, with a predictor that has nothing to answer. -/
theorem Configured.predicted (P : InOrderPredictor π)
    {fetchSize fetchInterval misspredictPenalty : Option Int} {s : FetchStage φ μ π}
    (configured : s.Configured fetchSize fetchInterval misspredictPenalty true)
    (idle : P.pending s.predictor = []) :
    Predicted P s (.connect s.fetcher.fetchSize) [] [] := by
  obtain ⟨size, interval, penalty, _, _, _, fetcher, ports⟩ := Fetcher.configure_eq configured
  rw [fetcher]
  constructor
  · rw [ports]
    rfl
  · rw [fetcher]
  · rw [ports]
    rfl
  · rw [ports]
    exact ⟨rfl, rfl⟩
  · rfl
  · rw [ports]
    rfl
  · intro q member
    cases member
  · rw [fetcher]
    rfl
  · rw [idle]
    rfl

/-- The answers that a cycle appends. -/
def taken (s : FetchStage φ μ π) : List InstructionPacket :=
  if s.fetcher.returnsEarly s.ports then [] else s.ports.fetch.readableResponses

/-- The slots that a cycle hands to `ReceiveResponse`, with `usage` entries in use. -/
def takings (s : FetchStage φ μ π) (usage : Nat) : List FetcherEvent :=
  if s.fetcher.returnsEarly s.ports then []
  else Fetcher.receptions usage s.ports.fetch.readableResponses

/-- Either way a cycle appends what it takes, to what the first three calls leave. -/
theorem cycle_taken (S : Servers φ μ π) {s : FetchStage φ μ π}
    (unsent : s.ports.fetch.sentRequests = []) :
    (s.cycle S ()).1.fetcher.contents =
        s.buffered.2.1.contents ++ s.taken.map Fetcher.freshEntry ∧
      fetcherLog (s.cycle S ()).2 =
        s.buffered.2.2.2 ++ s.takings s.buffered.2.1.fetchBufferUsage ∧
      (s.cycle S ()).1.fetcher.flagsToCheck = s.fetcher.flagsToCheck := by
  unfold taken takings
  cases early : s.fetcher.returnsEarly s.ports with
  | true =>
    obtain ⟨contents', control', _, events, _⟩ := cycle_of_early S early unsent
    obtain ⟨_, _, _, _, _, flags⟩ := Fetcher.fields_of_control control'
    refine ⟨?_, ?_, flags⟩
    · rw [contents']
      exact (List.append_nil _).symm
    · rw [events]
      exact (List.append_nil _).symm
  | false =>
    obtain ⟨contents', control', _, events, _⟩ := cycle_of_fetch S early unsent
    obtain ⟨_, _, _, _, _, flags⟩ := Fetcher.fields_of_control control'
    exact ⟨contents', events, flags⟩

/-- The effect of a cycle. -/
theorem Predicted.cycle (S : PredictedServers φ μ π) {s : FetchStage φ μ π}
    {c : PredictorConnection} {asked fresh : List InstructionPacket}
    (before : Predicted S.predictor s c asked fresh) :
    ∃ c', Predicted S.predictor (s.cycle S.servers ()).1 c'
        (asked.drop c.readableResponses.length ++ fresh.take (c.takes fresh.length))
        (fresh.drop (c.takes fresh.length) ++ s.taken) ∧
      c'.bufferSize = c.bufferSize ∧
      c'.readableRequests = (fresh.take (c.takes fresh.length)).map Fetcher.query ∧
      c'.readableResponses = answered (s.cycle S.servers ()).2 ∧
      S.predictor.pending s.predictor ++ c.readableRequests.map PredictorPacket.instruction =
        c'.readableResponses.map PredictorPacket.instruction ++
          S.predictor.pending (s.cycle S.servers ()).1.predictor ∧
      fetcherLog (s.cycle S.servers ()).2 =
        (fresh.take (c.takes fresh.length)).map .sentToMemory ++
          (fresh.take (c.takes fresh.length)).map .sentToPredictor ++
          Fetcher.attributions 0 asked c.readableResponses ++
          ((asked.take c.readableResponses.length).map Fetcher.predictedEntry).map .unbuffered ++
          s.takings (asked.length - c.readableResponses.length + fresh.length) := by
  have enough := before.enough
  obtain ⟨predictor, checks, fetchUnsent, unsent, unanswered, sameSize, queries, shape,
    outstanding⟩ := before
  obtain ⟨result, f', memory', c₁, buffered, contents', memorySize, views⟩ :=
    Fetcher.clockBuffered_aligned predictor checks unsent sameSize shape enough
  obtain ⟨contents, events, flags⟩ := cycle_taken S.servers fetchUnsent
  obtain ⟨memoryPort, predictorState, predictorPort, answers⟩ := cycle_ports S.servers fetchUnsent
  obtain ⟨fetchUnsent', _⟩ := cycle_fetch S.servers fetchUnsent
  rw [show s.buffered = _ from buffered] at contents events memoryPort
  rw [show s.buffered = _ from buffered] at predictorState predictorPort answers
  dsimp only [clockPredictor] at memoryPort predictorState predictorPort answers
  -- The predictor reads the queries of the last cycle, and answers in order.
  have answering := S.predictor.inOrder s.predictor c₁ (views.sentResponses.trans unanswered)
    (by rw [views.readableRequests]; exact queries)
  rw [views.readableRequests] at answering
  have kept := S.predictor.sentRequests s.predictor c₁
  have served := S.predictor.readableResponses s.predictor c₁
  have size := S.predictor.bufferSize s.predictor c₁
  have usage : f'.fetchBufferUsage =
      asked.length - c.readableResponses.length + fresh.length := by
    have fits := c.takes_le fresh.length
    rw [← Fetcher.contents_length, contents']
    unfold Fetcher.aligned
    rw [List.length_append, List.length_map, List.length_map, List.length_append,
      List.length_drop, List.length_take, List.length_drop]
    omega
  refine ⟨(S.predictor.clock s.predictor c₁).2.swapBuffers, ?_, ?_, ?_, ?_, ?_, ?_⟩
  · constructor
    · rw [predictorPort]
      rfl
    · rw [flags, checks]
    · exact fetchUnsent'
    · rw [memoryPort]
      exact ⟨Connection.sentRequests_swap _, Connection.sentRequests_swap _⟩
    · exact Connection.sentResponses_swap _
    · rw [memoryPort, Connection.bufferSize_swap, Connection.bufferSize_swap, size,
        views.bufferSize, S.servers.instructionMemory.bufferSize, memorySize, sameSize]
    · rw [Connection.readableRequests_swap, kept, views.sentRequests]
      intro q member
      obtain ⟨p, _, rfl⟩ := List.mem_map.mp member
      rfl
    · rw [contents, contents']
      unfold Fetcher.aligned
      rw [List.append_assoc, ← List.map_append]
    · rw [Connection.readableResponses_swap, Connection.readableRequests_swap, kept,
        views.sentRequests, predictorState, ← List.append_assoc]
      change _ = _ ++ S.predictor.pending (S.predictor.clock s.predictor c₁).1 ++ _
      rw [← answering, outstanding, List.drop_left' (by simp), List.map_map]
      congr 1
      exact (List.map_id _).symm
  · rw [Connection.bufferSize_swap, size, views.bufferSize]
  · rw [Connection.readableRequests_swap, kept, views.sentRequests]
  · rw [Connection.readableResponses_swap, answers]
    rfl
  · rw [Connection.readableResponses_swap, predictorState]
    exact answering
  · rw [events, usage]

end FetchStage

end Sinuca3.Source
