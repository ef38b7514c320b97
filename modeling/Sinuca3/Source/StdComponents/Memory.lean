import Sinuca3.Source.Engine.DefaultPackets
import Sinuca3.Source.Engine.Serving

/-!
# Data memory and core

`memory/simple_memory.cpp` and the core that sends it the memory operations of the
instructions it fetches, `cores/simple_core.cpp`.
-/
namespace Sinuca3.Source

abbrev MemoryPacket : Type := BitVec 64

structure SimpleMemory where
  numberOfRequests : Nat := 0
  deriving DecidableEq

namespace SimpleMemory

def respond (m : SimpleMemory) (packet : MemoryPacket) : SimpleMemory × Option MemoryPacket :=
  ({ m with numberOfRequests := m.numberOfRequests + 1 }, some packet)

def clock {n : Nat} : ComponentClock SimpleMemory n MemoryPacket MemoryPacket := clockOnce respond

theorem respond_answers (m : SimpleMemory) (packet : MemoryPacket) :
    (respond m packet).2.map id = some packet := rfl

/-- A memory counts requests. -/
theorem afterRequests_eq (m : SimpleMemory) (requests : List MemoryPacket) :
    (afterRequests respond m requests).numberOfRequests =
      m.numberOfRequests + requests.length := by
  induction requests generalizing m with
  | nil => rfl
  | cons packet requests ih =>
    rw [afterRequests_cons, ih, respond, List.length_cons]
    dsimp only
    omega

end SimpleMemory

structure SimpleCore where
  numFetchedInstructions : Nat := 0

structure SimpleCorePorts where
  fetching : FetchConnection
  instructionMemory : Option (Connection MemoryPacket MemoryPacket)
  dataMemory : Option (Connection MemoryPacket MemoryPacket)

namespace SimpleCore

/-- `Configure`; the memories are optional. -/
def configure (instructionMemory dataMemory : Bool) : SimpleCore × SimpleCorePorts :=
  ({}, { fetching := .connect 0
         instructionMemory := if instructionMemory then some (.connect 0) else none
         dataMemory := if dataMemory then some (.connect 0) else none })

/-- A request that is refused is dropped. -/
def send (c : Connection MemoryPacket MemoryPacket) (packet : MemoryPacket) :
    Connection MemoryPacket MemoryPacket :=
  (c.sendRequest packet).getD c

/-- The two loops over the memory operations of an instruction. There are at most
`MAX_MEM_OPERATIONS` of each. -/
def dataRequests (response : InstructionPacket) : List MemoryPacket :=
  let info := response.dynamicInfo
  info.readsAddr.toList.take info.numReadings ++ info.writesAddr.toList.take info.numWritings

def clock (core : SimpleCore) (ports : SimpleCorePorts) : SimpleCore × SimpleCorePorts :=
  let fetching := (ports.fetching.sendRequest 0).getD ports.fetching
  match fetching.getResponse with
  | none => (core, { ports with fetching := fetching })
  | some (response, fetching) =>
    let core := { core with numFetchedInstructions := core.numFetchedInstructions + 1 }
    let ports := { ports with fetching := fetching }
    match ports.instructionMemory with
    | none => (core, ports)
    | some c =>
      (core, { ports with
        instructionMemory := some (send c response.staticInfo.instAddress)
        dataMemory := ports.dataMemory.map fun c => (dataRequests response).foldl send c })

theorem sends_eq (packets : List MemoryPacket) {c : Connection MemoryPacket MemoryPacket}
    (unlimited : c.bufferSize = 0) :
    (packets.foldl send c).sentRequests = c.sentRequests ++ packets := by
  induction packets generalizing c with
  | nil => exact (List.append_nil _).symm
  | cons packet packets ih =>
    rcases c.sendRequest_eq packet with ⟨_, bounded, _⟩ | ⟨c', sent, views, _⟩
    · omega
    · have first : send c packet = c' := by
        rw [send, sent]
        rfl
      rw [List.foldl_cons, first, ih (views.bufferSize.trans unlimited), views.sentRequests,
        List.append_assoc, List.singleton_append]

/-- A core with both memories sends all the memory operations of an instruction in the
cycle it fetches it in. -/
theorem clock_dataMemory {core : SimpleCore} {ports : SimpleCorePorts}
    {instructionMemory dataMemory : Connection MemoryPacket MemoryPacket}
    (hasInstructions : ports.instructionMemory = some instructionMemory)
    (hasData : ports.dataMemory = some dataMemory) (unlimited : dataMemory.bufferSize = 0)
    {response : InstructionPacket} {rest : List InstructionPacket}
    (fetched : ports.fetching.readableResponses = response :: rest) :
    ∃ c, (core.clock ports).2.dataMemory = some c ∧
      c.sentRequests = dataMemory.sentRequests ++ dataRequests response := by
  have asked : ((ports.fetching.sendRequest 0).getD ports.fetching).readableResponses =
      response :: rest := by
    rcases ports.fetching.sendRequest_eq 0 with ⟨refused, _⟩ | ⟨c', sent, views, _⟩
    · rw [refused]
      exact fetched
    · rw [sent]
      exact views.readableResponses.trans fetched
  unfold clock
  rcases ((ports.fetching.sendRequest 0).getD ports.fetching).getResponse_eq with
    ⟨_, empty⟩ | ⟨m, c', _, taken, queue, _⟩
  · rw [empty] at asked
    cases asked
  · rw [queue] at asked
    cases asked
    dsimp only
    rw [taken]
    refine ⟨(dataRequests response).foldl send dataMemory, ?_, sends_eq _ unlimited⟩
    dsimp only
    rw [hasInstructions, hasData]
    rfl

end SimpleCore

end Sinuca3.Source
