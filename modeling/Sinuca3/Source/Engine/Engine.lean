import Sinuca3.Lib.Machine
import Sinuca3.Source.Engine.Linkable
import Sinuca3.Source.Tracer.TraceReader

/-!
# Engine

`engine/engine.cpp`, the part that answers fetch requests. The trace reader is
the interface `TraceReader`; any implementation is a type of states with a
`fetch`. What the engine asks of the reader and puts on its connections is
recorded as a log.

A request may make the loop of `Fetch` run without end when instructions have
size zero, so the loop has a bound; `fetchLoop_enough` says that for instruction
sizes from one on, the size of the request is bound enough.
-/
namespace Sinuca3.Source
open Lib

/-- `tracer/trace_reader.hpp`. -/
structure TraceReader (ρ : Type) where
  fetch : ρ → InstructionPacket → Nat → FetchResult × InstructionPacket × ρ

def sinucaTraceReader : TraceReader SinucaTraceReader := ⟨SinucaTraceReader.fetch⟩

structure Engine (ρ : Type) where
  traceReader : ρ
  fetchBuffers : Nat → InstructionPacket
  connections : Nat → FetchConnection
  numberOfFetchers : Nat
  fetchedInstructions : BitVec 64 := 0
  end_ : Bool := false
  error : Bool := false

/-- What the engine does that its environment can tell. -/
inductive EngineEvent where
  | fetched (id : Nat) (result : FetchResult) (packet : InstructionPacket)
  | sent (id : Nat) (packet : InstructionPacket) (accepted : Bool)
  deriving DecidableEq

/-- What the engine put on the response connection of core `i`. -/
def delivered (i : Nat) (log : List EngineEvent) : List InstructionPacket :=
  log.filterMap fun
    | .sent id p accepted => if id = i ∧ accepted = true then some p else none
    | _ => none

theorem delivered_append (i : Nat) (log more : List EngineEvent) :
    delivered i (log ++ more) = delivered i log ++ delivered i more :=
  List.filterMap_append

namespace Engine

variable {ρ : Type}

def setConnection (e : Engine ρ) (id : Nat) (c : FetchConnection) : Engine ρ :=
  { e with connections := Function.update e.connections id c }

/-- A refused response is dropped with a warning. -/
def sendResponseToConnection (e : Engine ρ) (id : Nat) (toSend : InstructionPacket) :
    Bool × Engine ρ :=
  match (e.connections id).sendResponse toSend with
  | none => (false, e)
  | some c => (true, e.setConnection id c)

/-- Non-zero return codes are `true`. -/
def sendBufferedAndFetch (R : TraceReader ρ) (e : Engine ρ) (id : Nat) :
    Bool × Engine ρ × List EngineEvent :=
  let fetch := R.fetch e.traceReader (e.fetchBuffers id) id
  let r := fetch.1
  let toSend :=
    { e.fetchBuffers id with nextInstruction := fetch.2.1.staticInfo.instAddress }
  let e := { e with
    traceReader := fetch.2.2
    fetchBuffers := Function.update e.fetchBuffers id fetch.2.1 }
  let send := e.sendResponseToConnection id toSend
  let e := send.2
  let events := [.fetched id r fetch.2.1, .sent id toSend send.1]
  match r with
  | .end_ => (true, { e with end_ := true }, events)
  | .error => (true, { e with error := true }, events)
  | _ => (false, { e with fetchedInstructions := e.fetchedInstructions + 1 }, events)

/-- `weight += instSize`: a `long` and an `unsigned long`. -/
def addWeight (weight : Int) (instSize : BitVec 64) : Int :=
  (BitVec.ofInt 64 weight + instSize).toInt

/-- The loop of `Fetch`, at most `bound` times. -/
def fetchLoop (R : TraceReader ρ) (id : Nat) (request : Int) :
    Nat → Int → Engine ρ → Engine ρ × List EngineEvent
  | 0, _, e => (e, [])
  | bound + 1, weight, e =>
    if weight < request then
      match e.sendBufferedAndFetch R id with
      | (true, e, events) => (e, events)
      | (false, e, events) =>
        let rest := fetchLoop R id request bound
          (addWeight weight (e.fetchBuffers id).staticInfo.instSize) e
        (rest.1, events ++ rest.2)
    else (e, [])

def fetch (R : TraceReader ρ) (bound : Nat) (e : Engine ρ) (id : Nat) (request : Int) :
    Engine ρ × List EngineEvent :=
  if request = 0 then (e.sendBufferedAndFetch R id).2
  else fetchLoop R id request bound (e.fetchBuffers id).staticInfo.instSize.toInt e

/-- One iteration of the loop of `Clock`. -/
def clockConnection (R : TraceReader ρ) (bound : Nat) (e : Engine ρ) (i : Nat) :
    Engine ρ × List EngineEvent :=
  match (e.connections i).getRequest with
  | none => (e, [])
  | some (packet, c) => (e.setConnection i c).fetch R bound i packet

def clock (R : TraceReader ρ) (bound : Nat) (e : Engine ρ) : Engine ρ × List EngineEvent :=
  Machine.run (clockConnection R bound) e (List.range e.numberOfFetchers)

/-- The loop of `SetupSimulation` over the cores from `i` on. -/
def setupLoop (R : TraceReader ρ) : List Nat → Engine ρ → Bool × Engine ρ × List EngineEvent
  | [], e => (false, e, [])
  | i :: rest, e =>
    let fetch := R.fetch e.traceReader (e.fetchBuffers i) i
    let e := { e with
      traceReader := fetch.2.2
      fetchBuffers := Function.update e.fetchBuffers i fetch.2.1 }
    let event := .fetched i fetch.1 fetch.2.1
    if fetch.1 ≠ .ok then (true, e, [event])
    else
      let later := setupLoop R rest
        { e with fetchedInstructions := e.fetchedInstructions + 1 }
      (later.1, later.2.1, event :: later.2.2)

/-- The fetch buffers hold whatever `new` left in them. -/
def setupSimulation (R : TraceReader ρ) (reader : ρ) (garbage : Nat → InstructionPacket)
    (connections : Nat → FetchConnection) (numberOfConnections : Nat) :
    Bool × Engine ρ × List EngineEvent :=
  setupLoop R (List.range numberOfConnections)
    { traceReader := reader
      fetchBuffers := garbage
      connections := connections
      numberOfFetchers := numberOfConnections }

/-- The instructions of the threads' headers together; an `unsigned long`. -/
def getTraceSize (totalThreads : Nat) (getTotalInstToBeFetched : Nat → BitVec 64) : BitVec 64 :=
  (List.range totalThreads).foldl (fun size i => size + getTotalInstToBeFetched i) 0

/-- `remaining` of `PrintTime`. -/
def remaining (e : Engine ρ) (traceSize : BitVec 64) : BitVec 64 :=
  traceSize - e.fetchedInstructions

/-- What may happen between the engine's clocks, in any order. -/
inductive Op where
  | clock
  | posClock
  | sendRequest (id : Nat) (request : Int)
  | getResponse (id : Nat)

/-- The engine and its connections, under anything its cores may do to them. -/
def step (R : TraceReader ρ) (bound : Nat) (e : Engine ρ) : Op → Engine ρ × List EngineEvent
  | .clock => e.clock R bound
  | .posClock => ({ e with connections := fun id => (e.connections id).swapBuffers }, [])
  | .sendRequest id request =>
    match (e.connections id).sendRequest request with
    | none => (e, [])
    | some c => (e.setConnection id c, [])
  | .getResponse id =>
    match (e.connections id).getResponse with
    | none => (e, [])
    | some (_, c) => (e.setConnection id c, [])

/-- The reader answers of a step are those of `Engine::Fetch` calls: what one of
them does to the engine, whatever the connections answer. -/
theorem sendBufferedAndFetch_eq (R : TraceReader ρ) (e : Engine ρ) (id : Nat) :
    ∃ e' accepted,
      e.sendBufferedAndFetch R id =
        (decide ((R.fetch e.traceReader (e.fetchBuffers id) id).1 = .end_ ∨
            (R.fetch e.traceReader (e.fetchBuffers id) id).1 = .error), e',
          [.fetched id (R.fetch e.traceReader (e.fetchBuffers id) id).1
              (R.fetch e.traceReader (e.fetchBuffers id) id).2.1,
            .sent id { e.fetchBuffers id with
              nextInstruction :=
                (R.fetch e.traceReader (e.fetchBuffers id) id).2.1.staticInfo.instAddress }
              accepted]) ∧
      e'.fetchBuffers = Function.update e.fetchBuffers id
        (R.fetch e.traceReader (e.fetchBuffers id) id).2.1 ∧
      e'.traceReader = (R.fetch e.traceReader (e.fetchBuffers id) id).2.2 ∧
      e'.fetchedInstructions =
        if (R.fetch e.traceReader (e.fetchBuffers id) id).1 = .end_ ∨
            (R.fetch e.traceReader (e.fetchBuffers id) id).1 = .error then e.fetchedInstructions
        else e.fetchedInstructions + 1 := by
  have kept : ∀ (e : Engine ρ) toSend,
      (e.sendResponseToConnection id toSend).2.fetchBuffers = e.fetchBuffers ∧
      (e.sendResponseToConnection id toSend).2.traceReader = e.traceReader ∧
      (e.sendResponseToConnection id toSend).2.fetchedInstructions = e.fetchedInstructions := by
    intro e toSend
    unfold sendResponseToConnection
    split <;> exact ⟨rfl, rfl, rfl⟩
  unfold sendBufferedAndFetch
  rcases R.fetch e.traceReader (e.fetchBuffers id) id with ⟨r, packet, reader⟩
  obtain ⟨buffers, readers, count⟩ := kept
    { e with traceReader := reader, fetchBuffers := Function.update e.fetchBuffers id packet }
    { e.fetchBuffers id with nextInstruction := packet.staticInfo.instAddress }
  cases r with
  | end_ => exact ⟨_, _, rfl, buffers, readers, count⟩
  | error => exact ⟨_, _, rfl, buffers, readers, count⟩
  | ok => exact ⟨_, _, rfl, buffers, readers, congrArg (· + 1) count⟩
  | nop => exact ⟨_, _, rfl, buffers, readers, congrArg (· + 1) count⟩

/-- An instruction of at least one octet, whose size can be added to a weight below any request
of an `int` without it going beyond a `long`. -/
def Sized (p : InstructionPacket) : Prop :=
  0 < p.staticInfo.instSize.toNat ∧ p.staticInfo.instSize.toNat < 9223372034707292160

instance (p : InstructionPacket) : Decidable (Sized p) :=
  inferInstanceAs (Decidable (_ ∧ _))

theorem addWeight_eq (weight : Int) (instSize : BitVec 64) (nonneg : 0 ≤ weight)
    (small : weight < 2147483648)
    (sized : instSize.toNat < 9223372034707292160) :
    addWeight weight instSize = weight + instSize.toNat := by
  unfold addWeight
  rw [BitVec.toInt_add, BitVec.toInt_ofInt, BitVec.toInt_eq_toNat_of_lt (by omega)]
  simp only [Int.bmod_def]
  omega

/-- With sized instructions every iteration brings the weight nearer to the
request, so a bound of their distance is never what ends the loop. -/
theorem fetchLoop_enough (R : TraceReader ρ) (id : Nat) (request : Int)
    (reader : ∀ s p, Sized p → Sized (R.fetch s p id).2.1)
    (requested : request ≤ 2147483648) (bound more : Nat) (weight : Int)
    (nonneg : 0 ≤ weight) (e : Engine ρ) (sized : Sized (e.fetchBuffers id))
    (enough : request - weight ≤ bound) :
    fetchLoop R id request (bound + more) weight e = fetchLoop R id request bound weight e := by
  induction bound generalizing weight e with
  | zero =>
    have reached : ¬ weight < request := by omega
    cases more with
    | zero => rfl
    | succ more =>
      rw [Nat.zero_add]
      unfold fetchLoop
      rw [if_neg reached]
  | succ bound ih =>
    rw [Nat.add_right_comm, fetchLoop, fetchLoop]
    split
    · obtain ⟨e', accepted, result, buffers, _⟩ := e.sendBufferedAndFetch_eq R id
      have sized' : Sized (e'.fetchBuffers id) := by
        rw [buffers, Function.update_self]
        exact reader _ _ sized
      rw [result]
      rcases decide _ with _ | _
      · have added := addWeight_eq weight (e'.fetchBuffers id).staticInfo.instSize nonneg
          (by omega) sized'.2
        have positive := sized'.1
        dsimp only
        rw [ih _ (by omega) e' sized' (by omega)]
      · rfl
    · rfl

end Engine

end Sinuca3.Source
