import Sinuca3.Source.StdComponents.Predictors

/-!
# The execution unit

`execute/simple_execution_unit.cpp`, and an instruction memory whose `sendTo` is such a
unit, as in `fetcher_test.yaml`: the two together, seen from the connection to the memory.
-/
namespace Sinuca3.Source

structure SimpleExecutionUnit where
  numberOfInstructions : Nat := 0
  /-- The instructions that were reported as executed. -/
  executed : List InstructionPacket := []

/-- A request is executed, and nothing is returned. -/
def SimpleExecutionUnit.respond (u : SimpleExecutionUnit) (packet : InstructionPacket) :
    SimpleExecutionUnit × Option InstructionPacket :=
  ({ numberOfInstructions := u.numberOfInstructions + 1, executed := u.executed ++ [packet] }, none)

def simpleExecutionUnit : Server SimpleExecutionUnit InstructionPacket InstructionPacket :=
  .answering SimpleExecutionUnit.respond

/-- An instruction memory, with the unit at the other end of its `sendTo`. -/
structure ExecutingMemory where
  memory : SimpleInstructionMemory
  unit : SimpleExecutionUnit

namespace ExecutingMemory

/-- The memory connects to the unit without a limit. -/
def configured : ExecutingMemory where
  memory := { sendTo := some (.connect 0) }
  unit := {}

/-- The clock of the unit, if there is a connection to it. -/
def clockUnit (unit : SimpleExecutionUnit) :
    Option MemoryConnection → SimpleExecutionUnit × Option MemoryConnection
  | none => (unit, none)
  | some c =>
    let clocked := simpleExecutionUnit.clock unit c
    (clocked.1, some clocked.2)

/-- The clocks of both in a cycle. At its end the buffers between them are swapped. -/
def clock (s : ExecutingMemory) (c : MemoryConnection) : ExecutingMemory × MemoryConnection :=
  let memory := simpleInstructionMemory.clock s.memory c
  let unit := clockUnit s.unit memory.1.sendTo
  ({ memory := { memory.1 with sendTo := unit.2.map Connection.swapBuffers }, unit := unit.1 },
    memory.2)

/-- What the unit will find at its next clock. -/
def forUnit (s : ExecutingMemory) : List InstructionPacket :=
  match s.memory.sendTo with
  | none => []
  | some c => c.readableRequests

/-- Between cycles nothing that the memory sent is on its way, and it was never refused. -/
structure Linked (s : ExecutingMemory) (toUnit : MemoryConnection) : Prop where
  sendTo : s.memory.sendTo = some toUnit
  unlimited : toUnit.bufferSize = 0
  unsent : toUnit.sentRequests = []

theorem linked_configured : Linked configured (.connect 0) := ⟨rfl, rfl, rfl⟩

theorem Linked.forUnit {s : ExecutingMemory} {toUnit : MemoryConnection}
    (linked : Linked s toUnit) : s.forUnit = toUnit.readableRequests := by
  unfold ExecutingMemory.forUnit
  rw [linked.sendTo]

/-- Without a limit all requests are passed on, and the connection that they came by stays
as it is. -/
theorem pass_all (requests : List InstructionPacket) {m : SimpleInstructionMemory}
    {toUnit : MemoryConnection} (sendTo : m.sendTo = some toUnit)
    (unlimited : toUnit.bufferSize = 0) (c : MemoryConnection) :
    ∃ toUnit', requests.foldl (Server.handle SimpleInstructionMemory.respond) (m, c) =
        ({ sendTo := some toUnit'
           numberOfRequests := m.numberOfRequests + requests.length }, c) ∧
      toUnit.Views toUnit' (toUnit.sentRequests ++ requests) toUnit.readableRequests
        toUnit.sentResponses toUnit.readableResponses := by
  induction requests generalizing m toUnit with
  | nil =>
    refine ⟨toUnit, ?_, ⟨rfl, (List.append_nil _).symm, rfl, rfl, rfl⟩⟩
    rw [← sendTo]
    rfl
  | cons request requests ih =>
    rcases toUnit.sendRequest_eq request with ⟨_, limited, _⟩ | ⟨next, sent, views, _⟩
    · omega
    · have first : Server.handle SimpleInstructionMemory.respond (m, c) request =
          ({ sendTo := some next, numberOfRequests := m.numberOfRequests + 1 }, c) := by
        unfold Server.handle SimpleInstructionMemory.respond
        dsimp only
        rw [sendTo]
        dsimp only
        rw [sent]
        rfl
      obtain ⟨toUnit', passed, views'⟩ :=
        ih (m := { sendTo := some next, numberOfRequests := m.numberOfRequests + 1 }) rfl
          (views.bufferSize.trans unlimited)
      refine ⟨toUnit', ?_, ?_⟩
      · rw [List.foldl_cons, first, passed, List.length_cons, Nat.add_assoc, Nat.add_comm 1]
      · have both := views.trans views'
        rw [views.sentRequests, views.readableRequests, views.sentResponses,
          views.readableResponses, List.append_assoc] at both
        exact both

/-- All requests are executed, one after the other. -/
theorem execute_all (requests : List InstructionPacket) (u : SimpleExecutionUnit)
    (c : MemoryConnection) :
    requests.foldl (Server.handle SimpleExecutionUnit.respond) (u, c) =
      ({ numberOfInstructions := u.numberOfInstructions + requests.length
         executed := u.executed ++ requests }, c) := by
  induction requests generalizing u with
  | nil =>
    rw [List.append_nil]
    rfl
  | cons request requests ih =>
    have first : Server.handle SimpleExecutionUnit.respond (u, c) request =
        ({ numberOfInstructions := u.numberOfInstructions + 1,
           executed := u.executed ++ [request] }, c) := rfl
    rw [List.foldl_cons, first, ih, List.length_cons, Nat.add_assoc, Nat.add_comm 1,
      List.append_assoc]
    rfl

/-- A cycle: the memory passes on what it finds, and the unit executes what was passed on
in the last one. -/
theorem Linked.clock_eq {s : ExecutingMemory} {toUnit : MemoryConnection} (linked : Linked s toUnit)
    (c : MemoryConnection) :
    ∃ toUnit', Linked (s.clock c).1 toUnit' ∧ toUnit'.readableRequests = c.readableRequests ∧
      (s.clock c).1.memory.numberOfRequests =
        s.memory.numberOfRequests + c.readableRequests.length ∧
      (s.clock c).1.unit =
        { numberOfInstructions := s.unit.numberOfInstructions + toUnit.readableRequests.length
          executed := s.unit.executed ++ toUnit.readableRequests } := by
  obtain ⟨read, drained, _⟩ := c.drainRequests_eq
  obtain ⟨passed, passes, views⟩ :=
    pass_all c.readableRequests linked.sendTo linked.unlimited read
  have memory : simpleInstructionMemory.clock s.memory c =
      ({ sendTo := some passed
         numberOfRequests := s.memory.numberOfRequests + c.readableRequests.length }, read) := by
    unfold simpleInstructionMemory Server.answering
    dsimp only
    rw [drained]
    exact passes
  obtain ⟨taken, drained', views'⟩ := passed.drainRequests_eq
  have unit : clockUnit s.unit (some passed) =
      ({ numberOfInstructions := s.unit.numberOfInstructions + toUnit.readableRequests.length
         executed := s.unit.executed ++ toUnit.readableRequests }, some taken) := by
    unfold clockUnit simpleExecutionUnit Server.answering
    dsimp only
    rw [drained', execute_all, views.readableRequests]
  unfold clock
  rw [memory]
  dsimp only
  rw [unit]
  refine ⟨taken.swapBuffers, ⟨rfl, ?_, Connection.sentRequests_swap taken⟩, ?_, rfl, rfl⟩
  · rw [Connection.bufferSize_swap, views'.bufferSize, views.bufferSize, linked.unlimited]
  · rw [Connection.readableRequests_swap, views'.sentRequests, views.sentRequests, linked.unsent,
      List.nil_append]

/-- The memory with its unit, as a component that a fetcher is configured with. -/
def server : Server ExecutingMemory InstructionPacket InstructionPacket where
  clock := clock
  bufferSize s c := simpleInstructionMemory.bufferSize s.memory c
  sentRequests s c := simpleInstructionMemory.sentRequests s.memory c
  readableResponses s c := simpleInstructionMemory.readableResponses s.memory c

end ExecutingMemory

end Sinuca3.Source
