import Sinuca3.Guarantees.SerialReplay
import Sinuca3.Source.Engine.Simulation

/-!
# A whole simulation

A core that asks for an instruction in every cycle receives them two cycles behind: one
for the request, one for the response. The engine looks one instruction ahead, so the
answer without an instruction at the end of a trace comes as the last one is sent, and
the simulation ends in the cycle in which the core receives it.
-/
namespace Sinuca3.Guarantees
open Sinuca3.Source Lib

/-- The contents of a packet: an instruction with its accesses. -/
abbrev Contents : Type := StaticInstructionInfo × MemoryAccesses

/-- A reader that delivers some instructions to thread 0, then nothing once, then the end.
`left` says what is still to come, and `none` that the end has been found. -/
structure SerialReader {ρ : Type} (R : TraceReader ρ) (left : Option (List Contents) → ρ → Prop) :
    Prop where
  delivers : ∀ c rest reader ret, left (some (c :: rest)) reader → ∃ p reader',
    R.fetch reader ret 0 = (.ok, p, reader') ∧ contents p = c ∧ left (some rest) reader'
  stops : ∀ reader ret, left (some []) reader → ∃ reader',
    R.fetch reader ret 0 = (.nop, ret, reader') ∧ left none reader'
  ended : ∀ reader ret, left none reader → R.fetch reader ret 0 = (.end_, ret, reader)

section Memory

/-- What a memory with one client has read of the batches of requests sent to it, a batch
a cycle: the first of each, but for the last batch, which waits. -/
structure MemoryTrail (m : SimpleMemory × Connections 1 MemoryPacket MemoryPacket)
    (batches : List (List MemoryPacket)) (read : List MemoryPacket) : Prop where
  unlimited : (m.2 0).bufferSize = 0
  unsent : (m.2 0).sentRequests = []
  unanswered : (m.2 0).sentResponses = []
  waiting : (m.2 0).readableRequests = batches.getLast?.getD []
  inTurn : read = batches.dropLast.flatMap (List.take 1)
  counted : m.1.numberOfRequests = read.length

theorem memoryTrail_connect : MemoryTrail ({}, fun _ => .connect 0) [] [] where
  unlimited := rfl
  unsent := rfl
  unanswered := rfl
  waiting := rfl
  inTurn := rfl
  counted := rfl

/-- The requests that a memory with one client has read. -/
theorem handled_eq_processed (log : ComponentLog 1 MemoryPacket MemoryPacket) :
    log.handled = log.processed 0 := by
  refine List.filterMap_congr fun e _ => ?_
  obtain ⟨id, event⟩ := e
  cases event with
  | processed message => exact (if_pos (Subsingleton.elim id 0)).symm
  | accepted message => rfl
  | answered response => rfl

/-- A cycle in which the client sends another batch. -/
theorem MemoryTrail.cycle {m : SimpleMemory × Connections 1 MemoryPacket MemoryPacket}
    {batches : List (List MemoryPacket)} {read : List MemoryPacket}
    (trail : MemoryTrail m batches read) (batch : List MemoryPacket)
    {connections : Connections 1 MemoryPacket MemoryPacket}
    (sent : (m.2 0).Views (connections 0) batch (m.2 0).readableRequests (m.2 0).sentResponses
      (m.2 0).readableResponses) :
    let clocked := SimpleMemory.clock (m.1, connections)
    MemoryTrail (clocked.1.1, clocked.1.2.posClock) (batches ++ [batch])
      (read ++ clocked.2.handled) := by
  intro clocked
  have served := clockOnce_eq SimpleMemory.respond
    (fun m packet => SimpleMemory.respond_answers m packet) (m.1, connections)
  have first : firstRequests connections (List.finRange 1) = (batches.getLast?.getD []).take 1 := by
    rw [← trail.waiting, ← sent.readableRequests]
    exact List.append_nil _
  have handled : clocked.2.handled = (batches.getLast?.getD []).take 1 := by
    rw [handled_eq_processed, ← trail.waiting, ← sent.readableRequests]
    exact served.processed 0 (List.mem_finRange 0)
  have reads : read ++ clocked.2.handled = batches.flatMap (List.take 1) := by
    rw [handled, trail.inTurn]
    rcases List.eq_nil_or_concat batches with rfl | ⟨front, last, rfl⟩
    · rfl
    · simp
  refine ⟨?_, Connection.sentRequests_swap _, Connection.sentResponses_swap _, ?_, ?_, ?_⟩
  · exact (served.bufferSize 0).trans (sent.bufferSize.trans trail.unlimited)
  · rw [List.getLast?_concat]
    exact (Connection.readableRequests_swap _).trans
      ((served.sentRequests 0).trans sent.sentRequests)
  · rw [reads, List.dropLast_concat]
  · rw [List.length_append, ← trail.counted, handled, ← first]
    rw [show clocked.1.1 = _ from served.component, SimpleMemory.afterRequests_eq]

end Memory

section Engine

variable {ρ : Type} (R : TraceReader ρ) (bound : Nat) {e : Engine ρ}
  (one : e.numberOfFetchers = 1)
include one

/-- An engine with one core that is not asked for an instruction. -/
theorem clock_unasked (unasked : (e.connections 0).readableRequests = []) :
    e.clock R bound = (e, []) := by
  unfold Engine.clock
  rw [one]
  have idle : e.clockConnection R bound 0 = (e, []) := by
    unfold Engine.clockConnection
    rcases (e.connections 0).getRequest_eq with ⟨none, _⟩ | ⟨m, c, rest, _, queue, _⟩
    · rw [none]
    · rw [unasked] at queue
      cases queue
  change Machine.run (Engine.clockConnection R bound) e [0] = _
  rw [Machine.run_cons, idle]
  rfl

/-- One that is asked for an instruction, on a connection without a limit: it sends the one
it has buffered and fetches the next. -/
theorem clock_asked (unlimited : (e.connections 0).bufferSize = 0)
    (asked : (e.connections 0).readableRequests = [0]) :
    let fetch := R.fetch e.traceReader (e.fetchBuffers 0) 0
    let next := (e.clock R bound).1
    next.traceReader = fetch.2.2 ∧ next.fetchBuffers 0 = fetch.2.1 ∧
      next.numberOfFetchers = 1 ∧
      next.end_ = (e.end_ || fetch.1 = .end_) ∧ next.error = (e.error || fetch.1 = .error) ∧
      next.fetchedInstructions =
        (if fetch.1 = .end_ ∨ fetch.1 = .error then e.fetchedInstructions
        else e.fetchedInstructions + 1) ∧
      (e.connections 0).Views (next.connections 0) (e.connections 0).sentRequests []
        ((e.connections 0).sentResponses ++
          [{ e.fetchBuffers 0 with nextInstruction := fetch.2.1.staticInfo.instAddress }])
        (e.connections 0).readableResponses := by
  intro fetch next
  obtain ⟨r, p, reader, fetched⟩ : ∃ r p reader,
      R.fetch e.traceReader (e.fetchBuffers 0) 0 = (r, p, reader) := ⟨_, _, _, rfl⟩
  rcases (e.connections 0).getRequest_eq with ⟨_, empty⟩ | ⟨m, c, rest, taken, queue, views⟩
  · rw [asked] at empty
    cases empty
  · rw [asked] at queue
    cases queue
    have here : next = ((e.setConnection 0 c).sendBufferedAndFetch R 0).2.1 := by
      change (e.clock R bound).1 = _
      unfold Engine.clock
      rw [one]
      change (Machine.run (Engine.clockConnection R bound) e [0]).1 = _
      rw [Machine.run_cons, Engine.clockConnection, taken]
      rfl
    rcases c.sendResponse_eq
      { e.fetchBuffers 0 with nextInstruction := p.staticInfo.instAddress } with
      ⟨_, bounded, _⟩ | ⟨c', sent, views', _⟩
    · rw [views.bufferSize] at bounded
      omega
    · have both := views.trans views'
      rw [views.sentRequests, views.readableRequests, views.sentResponses,
        views.readableResponses] at both
      rw [here, show fetch = (r, p, reader) from fetched]
      unfold Engine.sendBufferedAndFetch Engine.sendResponseToConnection Engine.setConnection
      cases r <;> simp [fetched, sent, both, one]

end Engine

/-- The instructions that the core has received. -/
def receivedByCore (log : List SimulationEvent) : List InstructionPacket :=
  log.filterMap fun
    | .received response => some response
    | _ => none

/-- The requests that the memories have read. -/
def readByInstructionMemory (log : List SimulationEvent) : List MemoryPacket :=
  log.filterMap fun
    | .instructionMemory (.processed packet) => some packet
    | _ => none

def readByDataMemory (log : List SimulationEvent) : List MemoryPacket :=
  log.filterMap fun
    | .dataMemory (.processed packet) => some packet
    | _ => none

section Cycle

variable {ρ : Type} (R : TraceReader ρ) (bound : Nat)

/-- What the components do in a cycle, after the clock of the engine. -/
structure CycleOf (s : SimpleTest ρ) (clocked : Engine ρ) (next : SimpleTest ρ)
    (events : List SimulationEvent) : Prop where
  totalCycles : next.totalCycles = s.totalCycles + 1
  traceReader : next.engine.traceReader = clocked.traceReader
  fetchBuffers : next.engine.fetchBuffers = clocked.fetchBuffers
  numberOfFetchers : next.engine.numberOfFetchers = clocked.numberOfFetchers
  fetchedInstructions : next.engine.fetchedInstructions = clocked.fetchedInstructions
  end_ : next.engine.end_ = clocked.end_
  error : next.engine.error = clocked.error
  connection : (clocked.connections 0).Views (next.engine.connections 0) []
    ((clocked.connections 0).sentRequests ++ [0]) [] (clocked.connections 0).sentResponses
  counted : next.core.numFetchedInstructions =
    s.core.numFetchedInstructions + (clocked.connections 0).readableResponses.length
  received : receivedByCore events = (clocked.connections 0).readableResponses
  instructions : ∀ {batches read}, MemoryTrail s.instructionMemory batches read →
    MemoryTrail next.instructionMemory
      (batches ++ [(clocked.connections 0).readableResponses.map fun p => p.staticInfo.instAddress])
      (read ++ readByInstructionMemory events)
  data : ∀ {batches read}, MemoryTrail s.dataMemory batches read →
    MemoryTrail next.dataMemory
      (batches ++ [(clocked.connections 0).readableResponses.flatMap SimpleCore.dataRequests])
      (read ++ readByDataMemory events)

theorem receivedByCore_append (log more : List SimulationEvent) :
    receivedByCore (log ++ more) = receivedByCore log ++ receivedByCore more :=
  List.filterMap_append

theorem readByInstructionMemory_append (log more : List SimulationEvent) :
    readByInstructionMemory (log ++ more) =
      readByInstructionMemory log ++ readByInstructionMemory more :=
  List.filterMap_append

theorem readByDataMemory_append (log more : List SimulationEvent) :
    readByDataMemory (log ++ more) = readByDataMemory log ++ readByDataMemory more :=
  List.filterMap_append

theorem toList_head? {α : Type} {list : List α} (few : list.length ≤ 1) :
    list.head?.toList = list := by
  match list, few with
  | [], _ => rfl
  | [_], _ => rfl

/-- The events of a cycle, by the component whose they are. -/
theorem events_of_cycle (engine : List EngineEvent) (response : Option InstructionPacket)
    (instructions data : ComponentLog 1 MemoryPacket MemoryPacket) :
    let events := engine.map SimulationEvent.engine ++
      (response.toList.map SimulationEvent.received ++
        (instructions.map (fun e => SimulationEvent.instructionMemory e.2) ++
          (data.map (fun e => SimulationEvent.dataMemory e.2) ++ [])))
    receivedByCore events = response.toList ∧
      readByInstructionMemory events = instructions.handled ∧
      readByDataMemory events = data.handled := by
  intro events
  simp only [events, receivedByCore, readByInstructionMemory, readByDataMemory,
    List.filterMap_append, List.filterMap_map, Function.comp_def, List.append_nil]
  refine ⟨by simp, ?_, ?_⟩
  · simp only [List.filterMap_none, List.nil_append, List.append_nil]
    exact List.filterMap_congr fun e _ => by obtain ⟨id, _ | _ | _⟩ := e <;> rfl
  · simp only [List.filterMap_none, List.nil_append]
    exact List.filterMap_congr fun e _ => by obtain ⟨id, _ | _ | _⟩ := e <;> rfl

theorem cycle_cycleOf (s : SimpleTest ρ)
    (unlimited : ((s.engine.clock R bound).1.connections 0).bufferSize = 0)
    (few : ((s.engine.clock R bound).1.connections 0).readableResponses.length ≤ 1)
    (instructionsUnlimited : (s.instructionMemory.2 0).bufferSize = 0)
    (instructionsUnsent : (s.instructionMemory.2 0).sentRequests = [])
    (dataUnlimited : (s.dataMemory.2 0).bufferSize = 0)
    (dataUnsent : (s.dataMemory.2 0).sentRequests = []) :
    CycleOf s (s.engine.clock R bound).1 (s.cycle R bound).1 (s.cycle R bound).2 := by
  obtain ⟨clocked, response⟩ := SimpleCore.clock_clocked s.core unlimited instructionsUnlimited
    dataUnlimited few
  obtain ⟨c, instructionPort, instructionViews⟩ := clocked.instructions
  obtain ⟨c', dataPort, dataViews⟩ := clocked.data
  rw [instructionsUnsent, List.nil_append] at instructionViews
  rw [dataUnsent, List.nil_append] at dataViews
  rw [SimpleTest.cycle_eq]
  dsimp only
  generalize s.core.clock ⟨(s.engine.clock R bound).1.connections 0,
    some (s.instructionMemory.2 0), some (s.dataMemory.2 0)⟩ = after
    at clocked instructionPort dataPort ⊢
  rw [instructionPort, dataPort, response]
  simp only [Option.getD_some]
  obtain ⟨received, instructions, data⟩ := events_of_cycle (s.engine.clock R bound).2
    ((s.engine.clock R bound).1.connections 0).readableResponses.head?
    (SimpleMemory.clock (s.instructionMemory.1, fun _ => c)).2
    (SimpleMemory.clock (s.dataMemory.1, fun _ => c')).2
  have own : ((s.engine.clock R bound).1.setConnection 0 after.2.fetching).connections 0 =
      after.2.fetching := by simp [Engine.setConnection]
  refine {
    totalCycles := rfl
    traceReader := rfl
    fetchBuffers := rfl
    numberOfFetchers := rfl
    fetchedInstructions := rfl
    end_ := rfl
    error := rfl
    connection := ?_
    counted := clocked.counted
    received := ?_
    instructions := ?_
    data := ?_ }
  · have swapped : (Engine.step R bound ((s.engine.clock R bound).1.setConnection 0
        after.2.fetching) .posClock).1.connections 0 = after.2.fetching.swapBuffers :=
      congrArg Connection.swapBuffers own
    have views := clocked.fetching
    rw [swapped]
    refine ⟨views.bufferSize, Connection.sentRequests_swap _, ?_,
      Connection.sentResponses_swap _, ?_⟩
    · rw [Connection.readableRequests_swap, views.sentRequests]
    · rw [Connection.readableResponses_swap, views.sentResponses]
  · rw [received]
    exact toList_head? few
  · intro batches read trail
    rw [instructions]
    exact trail.cycle _ instructionViews
  · intro batches read trail
    rw [data]
    exact trail.cycle _ dataViews

/-- What a core sends to a memory, a batch a cycle: in the first two cycles nothing, then
the requests of an instruction. -/
def sentBatches (requests : InstructionPacket → List MemoryPacket) (cycles : Nat)
    (received : List InstructionPacket) : List (List MemoryPacket) :=
  List.replicate (min cycles 2) [] ++ received.map requests

def instructionRequests (p : InstructionPacket) : List MemoryPacket := [p.staticInfo.instAddress]

/-- What the engine has buffered and what is to come, unless the end has been found. -/
def pending (buffered : InstructionPacket) : Option (List Contents) → List Contents
  | none => []
  | some rest => contents buffered :: rest

/-- The core and the memories after so many cycles. -/
structure CoreRan (cycles : Nat) (s : SimpleTest ρ) (log : List SimulationEvent) : Prop where
  totalCycles : s.totalCycles = BitVec.ofNat 64 cycles
  received : (receivedByCore log).length = cycles - 2
  counted : s.core.numFetchedInstructions = (receivedByCore log).length
  instructionTrail : MemoryTrail s.instructionMemory
    (sentBatches instructionRequests cycles (receivedByCore log)) (readByInstructionMemory log)
  dataTrail : MemoryTrail s.dataMemory
    (sentBatches SimpleCore.dataRequests cycles (receivedByCore log)) (readByDataMemory log)

/-- A simulation after so many cycles. The core is two cycles behind the engine. -/
structure Simulating (left : Option (List Contents) → ρ → Prop) (instructions : List Contents)
    (upcoming : Option (List Contents)) (cycles : Nat) (s : SimpleTest ρ)
    (log : List SimulationEvent) : Prop where
  core : CoreRan cycles s log
  fetchers : s.engine.numberOfFetchers = 1
  going : s.engine.end_ = false
  sound : s.engine.error = false
  fetchedInstructions : s.engine.fetchedInstructions = BitVec.ofNat 64 (max cycles 1)
  unlimited : (s.engine.connections 0).bufferSize = 0
  unsent : (s.engine.connections 0).sentRequests = []
  unanswered : (s.engine.connections 0).sentResponses = []
  asked : (s.engine.connections 0).readableRequests = if cycles = 0 then [] else [0]
  inFlight : (s.engine.connections 0).readableResponses.length = cycles - 1 - (cycles - 2)
  reader : left upcoming s.engine.traceReader
  whole : (receivedByCore log ++ (s.engine.connections 0).readableResponses).map contents ++
    pending (s.engine.fetchBuffers 0) upcoming = instructions

/-- One more batch. -/
theorem sentBatches_succ (requests : InstructionPacket → List MemoryPacket) {cycles : Nat}
    {received responses : List InstructionPacket} (count : received.length = cycles - 2)
    (more : responses.length = cycles - 1 - (cycles - 2)) :
    sentBatches requests cycles received ++ [responses.flatMap requests] =
      sentBatches requests (cycles + 1) (received ++ responses) := by
  unfold sentBatches
  by_cases early : cycles < 2
  · have none : received = [] := List.eq_nil_of_length_eq_zero (by omega)
    have none' : responses = [] := List.eq_nil_of_length_eq_zero (by omega)
    rw [none, none', Nat.min_eq_left (by omega), Nat.min_eq_left (by omega), List.replicate_succ']
    simp
  · obtain ⟨p, rfl⟩ := List.length_eq_one_iff.mp (show responses.length = 1 by omega)
    rw [Nat.min_eq_right (by omega), Nat.min_eq_right (by omega)]
    simp

/-- The first request of each batch but the last. -/
theorem read_of_sentBatches (requests : InstructionPacket → List MemoryPacket) (cycles : Nat)
    (received : List InstructionPacket) :
    (sentBatches requests cycles received).dropLast.flatMap (List.take 1) =
      received.dropLast.flatMap fun p => (requests p).take 1 := by
  unfold sentBatches
  rcases List.eq_nil_or_concat received with rfl | ⟨front, last, rfl⟩
  · simp
  · simp [List.flatMap_map, ← List.append_assoc]

theorem dataRequests_eq (p : InstructionPacket) :
    SimpleCore.dataRequests p =
      (contents p).2.1.map Prod.fst ++ (contents p).2.2.map Prod.fst := by
  simp only [SimpleCore.dataRequests, contents, packetAccesses, DynamicInstructionInfo.loads,
    DynamicInstructionInfo.stores]
  rw [List.map_fst_zip (by simp), List.map_fst_zip (by simp)]

variable {R bound} {left : Option (List Contents) → ρ → Prop} {instructions : List Contents}
  {upcoming upcoming' : Option (List Contents)} {cycles : Nat} {s : SimpleTest ρ}
  {log : List SimulationEvent}

/-- A cycle of the core and the memories, with the response that waits for the core. -/
theorem CoreRan.cycle (before : CoreRan cycles s log) {responses : List InstructionPacket}
    (unlimited : ((s.engine.clock R bound).1.connections 0).bufferSize = 0)
    (waiting : ((s.engine.clock R bound).1.connections 0).readableResponses = responses)
    (inFlight : responses.length = cycles - 1 - (cycles - 2)) :
    CycleOf s (s.engine.clock R bound).1 (s.cycle R bound).1 (s.cycle R bound).2 ∧
      receivedByCore (log ++ (s.cycle R bound).2) = receivedByCore log ++ responses ∧
      CoreRan (cycles + 1) (s.cycle R bound).1 (log ++ (s.cycle R bound).2) := by
  have next := cycle_cycleOf R bound s unlimited (by rw [waiting]; omega)
    before.instructionTrail.unlimited before.instructionTrail.unsent
    before.dataTrail.unlimited before.dataTrail.unsent
  have all : receivedByCore (log ++ (s.cycle R bound).2) = receivedByCore log ++ responses := by
    rw [receivedByCore_append, next.received, waiting]
  have instructionTrail := next.instructions before.instructionTrail
  have dataTrail := next.data before.dataTrail
  have single : ∀ ps : List InstructionPacket, (ps.map fun p => p.staticInfo.instAddress) =
      ps.flatMap instructionRequests := fun ps => List.map_eq_flatMap
  rw [waiting, single, sentBatches_succ _ before.received inFlight, ← all,
    ← readByInstructionMemory_append] at instructionTrail
  rw [waiting, sentBatches_succ _ before.received inFlight, ← all,
    ← readByDataMemory_append] at dataTrail
  refine ⟨next, all, ?_, ?_, ?_, instructionTrail, dataTrail⟩
  · rw [next.totalCycles, before.totalCycles]
    exact (BitVec.ofNat_add _ _).symm
  · rw [all, List.length_append, before.received, inFlight]
    omega
  · rw [all, List.length_append, next.counted, before.counted, waiting]

/-- A cycle, given what the clock of the engine does. -/
theorem Simulating.advance (before : Simulating left instructions upcoming cycles s log)
    (responses : List InstructionPacket)
    (fetchers : (s.engine.clock R bound).1.numberOfFetchers = 1)
    (going : (s.engine.clock R bound).1.end_ = false)
    (sound : (s.engine.clock R bound).1.error = false)
    (fetched : (s.engine.clock R bound).1.fetchedInstructions = BitVec.ofNat 64 (cycles + 1))
    (views : (s.engine.connections 0).Views ((s.engine.clock R bound).1.connections 0) [] []
      responses (s.engine.connections 0).readableResponses)
    (count : responses.length = cycles - (cycles - 1))
    (reader : left upcoming' (s.engine.clock R bound).1.traceReader)
    (whole : (receivedByCore log ++ (s.engine.connections 0).readableResponses ++
        responses).map contents ++
      pending ((s.engine.clock R bound).1.fetchBuffers 0) upcoming' = instructions) :
    Simulating left instructions upcoming' (cycles + 1) (s.cycle R bound).1
      (log ++ (s.cycle R bound).2) := by
  obtain ⟨next, all, core⟩ := before.core.cycle (views.bufferSize.trans before.unlimited)
    views.readableResponses before.inFlight
  have connection := next.connection
  rw [views.sentRequests, views.sentResponses, List.nil_append] at connection
  refine {
    core := core
    fetchers := next.numberOfFetchers.trans fetchers
    going := next.end_.trans going
    sound := next.error.trans sound
    fetchedInstructions := ?_
    unlimited := connection.bufferSize.trans (views.bufferSize.trans before.unlimited)
    unsent := connection.sentRequests
    unanswered := connection.sentResponses
    asked := ?_
    inFlight := ?_
    reader := next.traceReader ▸ reader
    whole := ?_ }
  · rw [next.fetchedInstructions, fetched, Nat.max_eq_left (by omega)]
  · rw [connection.readableRequests, if_neg (Nat.succ_ne_zero _)]
  · rw [connection.readableResponses, count]
    rfl
  · rw [all, connection.readableResponses, next.fetchBuffers]
    exact whole

variable (R bound) in
/-- In the first cycle the engine is not asked. -/
theorem Simulating.first (before : Simulating left instructions upcoming 0 s log) :
    Simulating left instructions upcoming 1 (s.cycle R bound).1 (log ++ (s.cycle R bound).2) := by
  have idle := clock_unasked R bound before.fetchers before.asked
  refine before.advance [] ?_ ?_ ?_ ?_ ?_ rfl ?_ ?_
  all_goals rw [idle]
  · exact before.fetchers
  · exact before.going
  · exact before.sound
  · exact before.fetchedInstructions
  · exact ⟨rfl, before.unsent, before.asked, before.unanswered, rfl⟩
  · exact before.reader
  · rw [List.append_nil]
    exact before.whole

variable (bound) in
/-- Then it sends an instruction in every cycle, until it finds none to fetch. -/
theorem Simulating.next (serial : SerialReader R left) {rest : List Contents}
    (before : Simulating left instructions (some rest) cycles s log) (asking : 0 < cycles) :
    Simulating left instructions rest.tail? (cycles + 1) (s.cycle R bound).1
      (log ++ (s.cycle R bound).2) := by
  have asked := before.asked
  rw [if_neg (by omega)] at asked
  obtain ⟨reader, buffer, fetchers, end_, error, fetched, views⟩ :=
    clock_asked R bound before.fetchers before.unlimited asked
  rw [before.going, Bool.false_or] at end_
  rw [before.sound, Bool.false_or] at error
  rw [before.fetchedInstructions, Nat.max_eq_left asking] at fetched
  rw [before.unsent, before.unanswered, List.nil_append] at views
  have counted : BitVec.ofNat 64 cycles + 1 = BitVec.ofNat 64 (cycles + 1) :=
    (BitVec.ofNat_add _ _).symm
  have one : 1 = cycles - (cycles - 1) := by omega
  cases rest with
  | nil =>
    obtain ⟨reader', fetch, after⟩ := serial.stops _ (s.engine.fetchBuffers 0) before.reader
    rw [fetch] at reader buffer end_ error fetched views
    rw [if_neg (by simp)] at fetched
    refine before.advance _ fetchers end_ error (fetched.trans counted) views one ?_ ?_
    · rw [reader]
      exact after
    · rw [List.map_append, ← before.whole]
      exact List.append_nil _
  | cons c rest =>
    obtain ⟨p, reader', fetch, same, after⟩ :=
      serial.delivers c rest _ (s.engine.fetchBuffers 0) before.reader
    rw [fetch] at reader buffer end_ error fetched views
    rw [if_neg (by simp)] at fetched
    refine before.advance _ fetchers end_ error (fetched.trans counted) views one ?_ ?_
    · rw [reader]
      exact after
    · rw [List.map_append, ← before.whole, buffer, List.append_assoc]
      simp only [List.tail?, pending, same]
      rfl

/-- What a simulation has come to. -/
structure SimulationEnded (instructions : List Contents) (s : SimpleTest ρ)
    (log : List SimulationEvent) : Prop where
  end_ : s.engine.end_ = true
  sound : s.engine.error = false
  totalCycles : s.totalCycles = BitVec.ofNat 64 (instructions.length + 2)
  fetchedInstructions : s.engine.fetchedInstructions = BitVec.ofNat 64 (instructions.length + 1)
  received : (receivedByCore log).map contents = instructions
  numFetchedInstructions : s.core.numFetchedInstructions = instructions.length
  instructionRequests : readByInstructionMemory log =
    instructions.dropLast.map fun c => c.1.instAddress
  numberOfInstructionRequests :
    s.instructionMemory.1.numberOfRequests = instructions.length - 1
  dataRequests : readByDataMemory log =
    instructions.dropLast.flatMap fun c => (c.2.1.map Prod.fst ++ c.2.2.map Prod.fst).take 1

variable (bound) in
/-- The cycle after the last instruction was sent, in which the core receives it. -/
theorem Simulating.finish (serial : SerialReader R left)
    (before : Simulating left instructions none cycles s log) (asking : 0 < cycles) :
    SimulationEnded instructions (s.cycle R bound).1 (log ++ (s.cycle R bound).2) := by
  have asked := before.asked
  rw [if_neg (by omega)] at asked
  obtain ⟨reader, buffer, fetchers, end_, error, fetched, views⟩ :=
    clock_asked R bound before.fetchers before.unlimited asked
  rw [serial.ended _ (s.engine.fetchBuffers 0) before.reader]
    at reader buffer end_ error fetched views
  rw [before.sound, Bool.false_or] at error
  rw [if_pos (.inl rfl), before.fetchedInstructions, Nat.max_eq_left asking] at fetched
  obtain ⟨next, all, core⟩ := before.core.cycle (views.bufferSize.trans before.unlimited)
    views.readableResponses before.inFlight
  have whole : (receivedByCore (log ++ (s.cycle R bound).2)).map contents = instructions := by
    rw [all]
    exact (List.append_nil _).symm.trans before.whole
  have last : cycles = instructions.length + 1 := by
    rw [← whole, List.length_map, all, List.length_append, before.core.received, before.inFlight]
    omega
  have instructionsRead := core.instructionTrail.inTurn
  have dataRead := core.dataTrail.inTurn
  rw [read_of_sentBatches] at instructionsRead dataRead
  have requests : readByInstructionMemory (log ++ (s.cycle R bound).2) =
      instructions.dropLast.map fun c => c.1.instAddress := by
    rw [instructionsRead, ← whole, ← List.map_dropLast, List.map_map]
    exact List.map_eq_flatMap.symm
  refine {
    end_ := next.end_.trans (end_.trans (Bool.or_true _))
    sound := next.error.trans error
    totalCycles := by rw [core.totalCycles, last]
    fetchedInstructions := by rw [next.fetchedInstructions, fetched, last]
    received := whole
    numFetchedInstructions := by rw [core.counted, ← whole, List.length_map]
    instructionRequests := requests
    numberOfInstructionRequests := ?_
    dataRequests := ?_ }
  · rw [core.instructionTrail.counted, requests, List.length_map, List.length_dropLast]
  · rw [dataRead, ← whole, ← List.map_dropLast, List.flatMap_map]
    exact List.flatMap_congr fun p _ => by rw [dataRequests_eq]

/-- One iteration of the loop. -/
theorem loop_going (going : s.engine.end_ = false) (sound : s.engine.error = false) (more : Nat) :
    s.loop R bound (more + 1) = ((s.cycle R bound).1.loop R bound more).map
      fun rest => (rest.1, (s.cycle R bound).2 ++ rest.2) := by
  rw [SimpleTest.loop, going, sound]
  rfl

theorem loop_ended (ended : s.engine.end_ = true) (more : Nat) :
    s.loop R bound more = some (s, []) := by
  unfold SimpleTest.loop
  rw [ended]
  rfl

variable (bound) in
/-- The loop, from any cycle on in which the engine is asked. -/
theorem Simulating.loop (serial : SerialReader R left) {rest : List Contents}
    (before : Simulating left instructions (some rest) cycles s log) (asking : 0 < cycles)
    (more : Nat) :
    ∃ s' events, s.loop R bound (rest.length + 2 + more) = some (s', events) ∧
      SimulationEnded instructions s' (log ++ events) := by
  induction rest generalizing cycles s log with
  | nil =>
    have next := before.next bound serial asking
    have finished := next.finish bound serial (Nat.succ_pos _)
    have fuel : ([] : List Contents).length + 2 + more = (more + 1) + 1 := by
      rw [List.length_nil]
      omega
    rw [fuel, loop_going before.going before.sound, loop_going next.going next.sound,
      loop_ended finished.end_]
    refine ⟨_, _, rfl, ?_⟩
    dsimp only
    rwa [List.append_nil, ← List.append_assoc]
  | cons c rest ih =>
    have next := before.next bound serial asking
    obtain ⟨s', events, loops, finished⟩ := ih next (Nat.succ_pos _)
    have fuel : (c :: rest).length + 2 + more = (rest.length + 2 + more) + 1 := by
      rw [List.length_cons]
      omega
    rw [fuel, loop_going before.going before.sound, loops]
    refine ⟨s', _, rfl, ?_⟩
    rwa [← List.append_assoc]

end Cycle

/-- The simulation of a reader that has instructions: it is over after two cycles more than
there are instructions. -/
theorem serial_simulation {ρ : Type} {R : TraceReader ρ} {left : Option (List Contents) → ρ → Prop}
    (serial : SerialReader R left) {c : Contents} {rest : List Contents} {reader : ρ}
    (start : left (some (c :: rest)) reader) (bound : Nat) (garbage : Nat → InstructionPacket)
    (more : Nat) :
    ∃ s log, SimpleTest.simulate R bound (rest.length + 3 + more) reader garbage =
        some (false, s, log) ∧ SimulationEnded (c :: rest) s log := by
  obtain ⟨p, reader', fetch, same, after⟩ := serial.delivers c rest reader (garbage 0) start
  have setup : Engine.setupSimulation R reader garbage (fun _ => .connect 0) 1 =
      (false, { traceReader := reader'
                fetchBuffers := Function.update garbage 0 p
                connections := fun _ => .connect 0
                numberOfFetchers := 1
                fetchedInstructions := 0 + 1 }, [.fetched 0 .ok p]) := by
    unfold Engine.setupSimulation
    change Engine.setupLoop R [0] _ = _
    unfold Engine.setupLoop
    simp only [fetch]
    rfl
  have before : Simulating left (c :: rest) (some rest) 0
      (SimpleTest.initial { traceReader := reader'
                            fetchBuffers := Function.update garbage 0 p
                            connections := fun _ => .connect 0
                            numberOfFetchers := 1
                            fetchedInstructions := 0 + 1 }) [.engine (.fetched 0 .ok p)] := by
    refine {
      core := ⟨rfl, rfl, rfl, memoryTrail_connect, memoryTrail_connect⟩
      fetchers := rfl
      going := rfl
      sound := rfl
      fetchedInstructions := rfl
      unlimited := rfl
      unsent := rfl
      unanswered := rfl
      asked := rfl
      inFlight := rfl
      reader := after
      whole := ?_ }
    change contents (Function.update garbage 0 p 0) :: rest = c :: rest
    rw [Function.update_self, same]
  obtain ⟨s, events, loops, finished⟩ :=
    (before.first R bound).loop bound serial Nat.one_pos more
  have fuel : rest.length + 3 + more = rest.length + 2 + more + 1 := by omega
  unfold SimpleTest.simulate
  rw [setup, fuel]
  dsimp only
  rw [if_neg (by decide), loop_going rfl rfl, loops]
  rw [List.append_assoc] at finished
  simp only [Option.map_some, finished.sound]
  exact ⟨s, _, rfl, finished⟩

section Program

variable {d : StaticDictionary}

/-- What a reader of one thread has still to deliver. -/
def LeftOf (dict : Nat → Nat → StaticInstructionInfo) (trace : ThreadTrace d)
    (upcoming : Option (List Contents)) (reader : SinucaTraceReader) : Prop :=
  ∃ s packets, reader = s.withDict dict ∧ Serial trace packets s ∧
    match upcoming with
    | some rest => s.hasExecutionEnded = false ∧
        packets.map contents ++ rest = trace.instructions
    | none => s.hasExecutionEnded = true

/-- A reader of one thread without events is serial. -/
theorem serialReader_leftOf {dict : Nat → Nat → StaticInstructionInfo}
    (agrees : AgreesInside dict d) (trace : ThreadTrace d)
    (plain : Plain trace.records) :
    SerialReader sinucaTraceReader (LeftOf dict trace) where
  delivers := by
    rintro c rest _ ret ⟨s, packets, rfl, serial, running, whole⟩
    have fetched := serial.fetch plain ret
    have agreed := fetch_agrees agrees serial.dictionary serial.follows ret
    generalize s.fetch ret 0 = result at fetched agreed
    cases fetched with
    | delivers p s' _ running' after =>
      obtain ⟨rest', whole', _⟩ := after.follows.contents
      rw [← whole, List.map_append, List.append_assoc] at whole'
      obtain ⟨same, rfl⟩ := List.cons.inj (List.append_cancel_left whole')
      refine ⟨p, _, agreed, same, s', _, rfl, after, running', ?_⟩
      rw [List.map_append, List.append_assoc]
      exact (congrArg _ (congrArg (· :: _) same)).trans whole
    | stops s' done _ _ _ =>
      obtain ⟨rest', whole', none⟩ := serial.follows.contents
      rw [← whole] at whole'
      rw [List.append_cancel_left whole', done] at none
      cases none
    | afterEnd ended =>
      rw [running] at ended
      cases ended
  stops := by
    rintro _ ret ⟨s, packets, rfl, serial, running, whole⟩
    have fetched := serial.fetch plain ret
    have agreed := fetch_agrees agrees serial.dictionary serial.follows ret
    generalize s.fetch ret 0 = result at fetched agreed
    cases fetched with
    | delivers p s' _ _ after =>
      obtain ⟨rest', whole', _⟩ := after.follows.contents
      rw [← whole, List.map_append, List.append_assoc] at whole'
      cases List.append_cancel_left whole'
    | stops s' _ _ ended after => exact ⟨_, agreed, s', packets, rfl, after, ended⟩
    | afterEnd ended =>
      rw [running] at ended
      cases ended
  ended := by
    rintro _ ret ⟨s, packets, rfl, serial, ended⟩
    have fetched := serial.fetch plain ret
    have agreed := fetch_agrees agrees serial.dictionary serial.follows ret
    generalize s.fetch ret 0 = result at fetched agreed
    cases fetched with
    | delivers p s' running _ _ =>
      rw [running] at ended
      cases ended
    | stops s' _ running _ _ =>
      rw [running] at ended
      cases ended
    | afterEnd _ => exact agreed

end Program

/-- The simulation of the trace of a program of one thread without events. -/
theorem TracedRun.opened_simulates {p : TracedRun} {trace : ThreadTrace p.dictionary}
    (instructions : trace.instructions = p.executed 0) (plain : Plain trace.records)
    (executes : p.executed 0 ≠ []) (garbage : Nat → BitVec 64) (bound : Nat)
    (buffered : Nat → InstructionPacket) {cycles : Nat}
    (enough : (p.executed 0).length + 2 ≤ cycles) :
    ∃ s log, SimpleTest.simulate sinucaTraceReader bound cycles
        ((SinucaTraceReader.openTrace p.dictionary ([trace].map ThreadTrace.files)
          garbage).withDict (filledDict p.recordedBlocks).instruction) buffered =
        some (false, s, log) ∧ SimulationEnded (p.executed 0) s log := by
  have agrees : AgreesInside (filledDict p.recordedBlocks).instruction p.dictionary :=
    agreesInside_filledDict _ _
  have first := (serialLog_replay trace plain garbage []).serial
  have start : LeftOf (filledDict p.recordedBlocks).instruction trace
      (some (p.executed 0)) ((SinucaTraceReader.openTrace p.dictionary
        ([trace].map ThreadTrace.files) garbage).withDict
          (filledDict p.recordedBlocks).instruction) :=
    ⟨_, [], rfl, first, rfl, instructions.symm⟩
  obtain ⟨c, rest, split⟩ := List.exists_cons_of_ne_nil executes
  rw [split] at start enough ⊢
  obtain ⟨more, rfl⟩ := Nat.exists_eq_add_of_le enough
  have fuel : (c :: rest).length + 2 + more = rest.length + 3 + more := by
    rw [List.length_cons, Nat.add_assoc rest.length 1 2]
  rw [fuel]
  exact serial_simulation (serialReader_leftOf agrees trace plain) start bound buffered more

/-- A program of one thread, from its instrumentation to the end of its simulation: the core
receives exactly the instructions that the thread executed, with their accesses. Of the
requests that it sends, the memories read the first of each cycle, and those of the last
instruction come too late. -/
theorem traced_program_simulated (p : ProgramRun) (fits : p.Fits) (alone : p.threadCount = 1)
    (quiet : ¬ Eventful p.inputs) (executes : p.executed 0 ≠ [])
    (garbage : Nat → BitVec 64) (bound : Nat) (buffered : Nat → InstructionPacket) :
    ∃ reader, SinucaTraceReader.openDirectory p.tool.directory garbage = some reader ∧
      ∀ cycles, (p.executed 0).length + 2 ≤ cycles → ∃ s log,
        SimpleTest.simulate sinucaTraceReader bound cycles reader buffered =
          some (false, s, log) ∧ SimulationEnded (p.executed 0) s log := by
  obtain ⟨traces, length, known, opened⟩ := exists_traces fits garbage
  rw [alone] at length
  obtain ⟨trace, rfl⟩ := List.length_eq_one_iff.mp length
  obtain ⟨instructions, silent⟩ := known 0 Nat.one_pos
  exact ⟨_, opened, fun cycles => TracedRun.opened_simulates instructions
    (plain_of_quiet (silent quiet)) executes garbage bound buffered⟩

theorem oneThread_simulated : ∃ reader,
    SinucaTraceReader.openDirectory oneThread.tool.directory (fun _ => 0) = some reader ∧
      ∃ s log, SimpleTest.simulate sinucaTraceReader 0 4 reader (fun _ => default) =
          some (false, s, log) ∧
        s.core.numFetchedInstructions = 2 ∧ readByDataMemory log = [8192] := by
  obtain ⟨reader, opened, simulated⟩ := traced_program_simulated oneThread fits_oneThread rfl
    (by simp [Eventful, oneThread, oneThreadInputs]) (List.cons_ne_nil _ _) (fun _ => 0) 0
    fun _ => default
  obtain ⟨s, log, ends, ended⟩ := simulated 4 (Nat.le_refl 4)
  exact ⟨reader, opened, s, log, ends, ended.numFetchedInstructions, ended.dataRequests⟩

end Sinuca3.Guarantees
