import Sinuca3.Source.Engine.EngineRuns
import Sinuca3.Source.StdComponents.Memory

/-!
# Simulation

`Engine::Simulate` with the components of `config_files/simple_test.yaml`: a core that
fetches from the engine, with a memory for instructions and one for data. The components
are clocked in the order in which they are created, the engine first.
-/
namespace Sinuca3.Source
open Lib

/-- The components of the configuration, with the connections that lead to each. -/
structure SimpleTest (ρ : Type) where
  engine : Engine ρ
  core : SimpleCore := {}
  instructionMemory : SimpleMemory × Connections 1 MemoryPacket MemoryPacket
  dataMemory : SimpleMemory × Connections 1 MemoryPacket MemoryPacket
  totalCycles : BitVec 64 := 0

inductive SimpleTestComponent where
  | engine
  | core
  | instructionMemory
  | dataMemory

inductive SimulationEvent where
  | engine (event : EngineEvent)
  /-- `ReceiveResponse` of the core returned 0. -/
  | received (response : InstructionPacket)
  | instructionMemory (event : ComponentEvent MemoryPacket MemoryPacket)
  | dataMemory (event : ComponentEvent MemoryPacket MemoryPacket)

/-- The response that a clock of the core reads. -/
def SimpleCore.response (fetching : FetchConnection) : Option InstructionPacket :=
  ((fetching.sendRequest 0).getD fetching).getResponse.map Prod.fst

namespace SimpleTest

variable {ρ : Type} (R : TraceReader ρ) (bound : Nat)

/-- `this->components`. -/
def components : List SimpleTestComponent := [.engine, .core, .instructionMemory, .dataMemory]

def ports (s : SimpleTest ρ) : SimpleCorePorts where
  fetching := s.engine.connections 0
  instructionMemory := some (s.instructionMemory.2 ⟨0, Nat.one_pos⟩)
  dataMemory := some (s.dataMemory.2 ⟨0, Nat.one_pos⟩)

/-- The other side of the connections of the core. -/
def withPorts (s : SimpleTest ρ) (core : SimpleCore) (ports : SimpleCorePorts) : SimpleTest ρ :=
  { s with
    core
    engine := s.engine.setConnection 0 ports.fetching
    instructionMemory :=
      (s.instructionMemory.1, fun id => ports.instructionMemory.getD (s.instructionMemory.2 id))
    dataMemory := (s.dataMemory.1, fun id => ports.dataMemory.getD (s.dataMemory.2 id)) }

def clock (s : SimpleTest ρ) : SimpleTestComponent → SimpleTest ρ × List SimulationEvent
  | .engine =>
    let clocked := s.engine.clock R bound
    ({ s with engine := clocked.1 }, clocked.2.map .engine)
  | .core =>
    let clocked := s.core.clock s.ports
    (s.withPorts clocked.1 clocked.2,
      (SimpleCore.response s.ports.fetching).toList.map .received)
  | .instructionMemory =>
    let clocked := SimpleMemory.clock s.instructionMemory
    ({ s with instructionMemory := clocked.1 }, clocked.2.map fun e => .instructionMemory e.2)
  | .dataMemory =>
    let clocked := SimpleMemory.clock s.dataMemory
    ({ s with dataMemory := clocked.1 }, clocked.2.map fun e => .dataMemory e.2)

/-- Nothing is connected to the core. -/
def posClock (s : SimpleTest ρ) : SimpleTestComponent → SimpleTest ρ
  | .engine => { s with engine := (s.engine.step R bound .posClock).1 }
  | .core => s
  | .instructionMemory =>
    { s with instructionMemory := (s.instructionMemory.1, s.instructionMemory.2.posClock) }
  | .dataMemory => { s with dataMemory := (s.dataMemory.1, s.dataMemory.2.posClock) }

/-- An iteration of the loop. -/
def cycle (s : SimpleTest ρ) : SimpleTest ρ × List SimulationEvent :=
  let clocked := Machine.run (clock R bound) s components
  let next := components.foldl (posClock R bound) clocked.1
  ({ next with totalCycles := next.totalCycles + 1 }, clocked.2)

/-- One component after the other. -/
theorem cycle_eq (s : SimpleTest ρ) : s.cycle R bound =
    let engine := s.engine.clock R bound
    let core := s.core.clock
      ⟨engine.1.connections 0, some (s.instructionMemory.2 0), some (s.dataMemory.2 0)⟩
    let instructionMemory := SimpleMemory.clock (s.instructionMemory.1,
      fun id => core.2.instructionMemory.getD (s.instructionMemory.2 id))
    let dataMemory := SimpleMemory.clock (s.dataMemory.1,
      fun id => core.2.dataMemory.getD (s.dataMemory.2 id))
    ({ engine := ((engine.1.setConnection 0 core.2.fetching).step R bound .posClock).1
       core := core.1
       instructionMemory := (instructionMemory.1.1, instructionMemory.1.2.posClock)
       dataMemory := (dataMemory.1.1, dataMemory.1.2.posClock)
       totalCycles := s.totalCycles + 1 },
      engine.2.map .engine ++
        ((SimpleCore.response (engine.1.connections 0)).toList.map .received ++
          (instructionMemory.2.map (fun e => .instructionMemory e.2) ++
            (dataMemory.2.map (fun e => .dataMemory e.2) ++ [])))) := rfl

/-- The loop, at most so many iterations; `none` is not having ended. -/
def loop : Nat → SimpleTest ρ → Option (SimpleTest ρ × List SimulationEvent)
  | cycles, s =>
    if s.engine.end_ || s.engine.error then some (s, [])
    else
      match cycles with
      | 0 => none
      | cycles + 1 =>
        let next := s.cycle R bound
        (loop cycles next.1).map fun rest => (rest.1, next.2 ++ rest.2)

/-- Before `Simulate`, with an engine that is set up. -/
def initial (engine : Engine ρ) : SimpleTest ρ where
  engine
  instructionMemory := ({}, fun _ => .connect 0)
  dataMemory := ({}, fun _ => .connect 0)

/-- What `Simulate` returns, non-zero as `true`, with the components and their log. -/
def simulate (cycles : Nat) (reader : ρ) (garbage : Nat → InstructionPacket) :
    Option (Bool × SimpleTest ρ × List SimulationEvent) :=
  let setup := Engine.setupSimulation R reader garbage (fun _ => .connect 0) 1
  let log := setup.2.2.map SimulationEvent.engine
  if setup.1 then some (true, initial setup.2.1, log)
  else
    (loop R bound cycles (initial setup.2.1)).map fun ended =>
      (ended.1.engine.error, ended.1, log ++ ended.2)

end SimpleTest

namespace SimpleCore

open Connection

theorem send_views {c : Connection MemoryPacket MemoryPacket} (unlimited : c.bufferSize = 0)
    (packet : MemoryPacket) :
    c.Views (send c packet) (c.sentRequests ++ [packet]) c.readableRequests c.sentResponses
      c.readableResponses := by
  rcases c.sendRequest_eq packet with ⟨_, bounded, _⟩ | ⟨c', sent, views, _⟩
  · omega
  · rwa [send, sent]

theorem sends_views (packets : List MemoryPacket) {c : Connection MemoryPacket MemoryPacket}
    (unlimited : c.bufferSize = 0) :
    c.Views (packets.foldl send c) (c.sentRequests ++ packets) c.readableRequests c.sentResponses
      c.readableResponses := by
  induction packets generalizing c with
  | nil => exact ⟨rfl, (List.append_nil _).symm, rfl, rfl, rfl⟩
  | cons packet packets ih =>
    have first := send_views unlimited packet
    have later := first.trans (ih (first.bufferSize.trans unlimited))
    rwa [first.sentRequests, first.readableRequests, first.sentResponses,
      first.readableResponses, List.append_assoc, List.singleton_append] at later

/-- A clock of a core with both memories, where at most one response waits. -/
structure Clocked (core : SimpleCore) (fetching : FetchConnection)
    (instructionMemory dataMemory : Connection MemoryPacket MemoryPacket)
    (responses : List InstructionPacket) (after : SimpleCore × SimpleCorePorts) : Prop where
  counted : after.1.numFetchedInstructions = core.numFetchedInstructions + responses.length
  fetching : fetching.Views after.2.fetching (fetching.sentRequests ++ [0])
    fetching.readableRequests fetching.sentResponses []
  instructions : ∃ c, after.2.instructionMemory = some c ∧
    instructionMemory.Views c
      (instructionMemory.sentRequests ++ responses.map fun p => p.staticInfo.instAddress)
      instructionMemory.readableRequests instructionMemory.sentResponses
      instructionMemory.readableResponses
  data : ∃ c, after.2.dataMemory = some c ∧
    dataMemory.Views c (dataMemory.sentRequests ++ responses.flatMap dataRequests)
      dataMemory.readableRequests dataMemory.sentResponses dataMemory.readableResponses

theorem clock_clocked (core : SimpleCore) {fetching : FetchConnection}
    {instructionMemory dataMemory : Connection MemoryPacket MemoryPacket}
    (unlimited : fetching.bufferSize = 0) (instructionsUnlimited : instructionMemory.bufferSize = 0)
    (dataUnlimited : dataMemory.bufferSize = 0) (few : fetching.readableResponses.length ≤ 1) :
    Clocked core fetching instructionMemory dataMemory fetching.readableResponses
        (core.clock ⟨fetching, some instructionMemory, some dataMemory⟩) ∧
      response fetching = fetching.readableResponses.head? := by
  rcases fetching.sendRequest_eq 0 with ⟨_, bounded, _⟩ | ⟨asked, sent, views, _⟩
  · omega
  unfold clock response
  dsimp only
  rw [sent, Option.getD_some]
  rcases asked.getResponse_eq with ⟨none, empty⟩ | ⟨p, taken, rest, present, queue, views'⟩
  · have silent : fetching.readableResponses = [] := views.readableResponses.symm.trans empty
    rw [none, silent]
    refine ⟨⟨rfl, ?_, ⟨_, rfl, ?_⟩, ⟨_, rfl, ?_⟩⟩, rfl⟩
    · rwa [silent] at views
    · exact ⟨rfl, (List.append_nil _).symm, rfl, rfl, rfl⟩
    · exact ⟨rfl, (List.append_nil _).symm, rfl, rfl, rfl⟩
  · have one : fetching.readableResponses = p :: rest := views.readableResponses.symm.trans queue
    rw [one, List.length_cons] at few
    obtain rfl : rest = [] := List.eq_nil_of_length_eq_zero (by omega)
    rw [present, one]
    refine ⟨⟨rfl, ?_, ⟨_, rfl, send_views instructionsUnlimited _⟩, ⟨_, rfl, ?_⟩⟩, rfl⟩
    · have both := views.trans views'
      rwa [views.sentRequests, views.readableRequests, views.sentResponses] at both
    · rw [List.flatMap_singleton]
      exact sends_views (dataRequests p) dataUnlimited

end SimpleCore

end Sinuca3.Source
