import Sinuca3.Source.Engine.Engine
import Sinuca3.Source.StdComponents.FetchBuffer
import Sinuca3.Source.StdComponents.Predictors

/-!
# The fetch stage

One cycle of `Engine::Simulate` for a fetcher and what it is connected to: every
component is clocked once, and then the buffers of every connection are swapped. The
components at the other ends are any servers; the engine is one of them, with the
record of what it did as a part of its state. A simulation stops when the trace ends,
so its runs are runs of any number of cycles.
-/
namespace Sinuca3.Source
open Lib

structure FetchStage (φ μ π : Type) where
  fetcher : Fetcher
  ports : FetcherPorts
  fetch : φ
  instructionMemory : μ
  predictor : π

/-- The components a fetcher is configured with. -/
structure FetchStage.Servers (φ μ π : Type) where
  fetch : Server φ Int InstructionPacket
  instructionMemory : Server μ InstructionPacket InstructionPacket
  predictor : Server π PredictorPacket PredictorPacket

inductive StageEvent where
  | fetcher (event : FetcherEvent)
  /-- A response that a swap threw away unread. -/
  | discarded (response : InstructionPacket)
  /-- A response the predictor sent. -/
  | answered (response : PredictorPacket)
  deriving DecidableEq

def fetcherLog (log : List StageEvent) : List FetcherEvent :=
  log.filterMap fun
    | .fetcher event => some event
    | _ => none

def discarded (log : List StageEvent) : List InstructionPacket :=
  log.filterMap fun
    | .discarded response => some response
    | _ => none

def answered (log : List StageEvent) : List PredictorPacket :=
  log.filterMap fun
    | .answered response => some response
    | _ => none

theorem fetcherLog_append (log more : List StageEvent) :
    fetcherLog (log ++ more) = fetcherLog log ++ fetcherLog more :=
  List.filterMap_append

theorem discarded_append (log more : List StageEvent) :
    discarded (log ++ more) = discarded log ++ discarded more :=
  List.filterMap_append

theorem answered_append (log more : List StageEvent) :
    answered (log ++ more) = answered log ++ answered more :=
  List.filterMap_append

/-- The three parts of the log of a cycle. -/
theorem parts_of_log (events : List FetcherEvent) (unread : List InstructionPacket)
    (answers : List PredictorPacket) :
    fetcherLog (events.map .fetcher ++ unread.map .discarded ++ answers.map .answered) = events ∧
    discarded (events.map .fetcher ++ unread.map .discarded ++ answers.map .answered) = unread ∧
    answered (events.map .fetcher ++ unread.map .discarded ++ answers.map .answered) = answers := by
  simp [fetcherLog, discarded, answered, List.filterMap_map]

def FetcherPorts.swapBuffers (ports : FetcherPorts) : FetcherPorts where
  fetch := ports.fetch.swapBuffers
  instructionMemory := ports.instructionMemory.swapBuffers
  predictor := ports.predictor.map Connection.swapBuffers

namespace FetchStage

variable {φ μ π : Type} (S : Servers φ μ π)

/-- The clock of a predictor, if there is one. -/
def clockPredictor (predictor : π) : Option PredictorConnection → π × Option PredictorConnection
  | none => (predictor, none)
  | some c =>
    let clocked := S.predictor.clock predictor c
    (clocked.1, some clocked.2)

def sentResponses : Option PredictorConnection → List PredictorPacket
  | none => []
  | some c => c.sentResponses

/-- The clock of the fetcher. -/
def clocked (s : FetchStage φ μ π) : Fetcher × FetcherPorts × List FetcherEvent :=
  s.fetcher.clock { s.ports with fetch := (S.fetch.clock s.fetch s.ports.fetch).2 }

/-- One iteration of the loop of `Simulate`. -/
def cycle (s : FetchStage φ μ π) (_ : Unit) : FetchStage φ μ π × List StageEvent :=
  let fetcher := s.clocked S
  let memory := S.instructionMemory.clock s.instructionMemory fetcher.2.1.instructionMemory
  let predictor := clockPredictor S s.predictor fetcher.2.1.predictor
  let ports : FetcherPorts :=
    { fetch := fetcher.2.1.fetch, instructionMemory := memory.2, predictor := predictor.2 }
  ({ fetcher := fetcher.1
     ports := ports.swapBuffers
     fetch := (S.fetch.clock s.fetch s.ports.fetch).1
     instructionMemory := memory.1
     predictor := predictor.1 },
    fetcher.2.2.map .fetcher ++ ports.fetch.readableResponses.map .discarded ++
      (sentResponses ports.predictor).map .answered)

/-- A simulation of the given number of cycles. -/
def simulate (s : FetchStage φ μ π) (cycles : Nat) : FetchStage φ μ π × List StageEvent :=
  Machine.run (cycle S) s (List.replicate cycles ())

theorem simulate_succ (s : FetchStage φ μ π) (cycles : Nat) :
    s.simulate S (cycles + 1) =
      (((s.cycle S ()).1.simulate S cycles).1,
        (s.cycle S ()).2 ++ ((s.cycle S ()).1.simulate S cycles).2) := rfl

theorem simulate_add (s : FetchStage φ μ π) (cycles more : Nat) :
    s.simulate S (cycles + more) =
      (((s.simulate S cycles).1.simulate S more).1,
        (s.simulate S cycles).2 ++ ((s.simulate S cycles).1.simulate S more).2) := by
  unfold simulate
  rw [List.replicate_add, Machine.run_append]

/-- What every cycle keeps holds after any number of them. -/
theorem simulate_induction {s : FetchStage φ μ π} {P : FetchStage φ μ π → List StageEvent → Prop}
    (start : P s [])
    (next : ∀ t log, P t log → P (t.cycle S ()).1 (log ++ (t.cycle S ()).2)) (cycles : Nat) :
    P (s.simulate S cycles).1 (s.simulate S cycles).2 := by
  unfold simulate
  apply Machine.run_induction (cycle S) (P := fun t _ log => P t log)
  · exact start
  · intro t _ log _ before
    exact next t log before

/-- The outcome of the first three calls of the fetcher in a cycle. -/
def buffered (s : FetchStage φ μ π) : Bool × Fetcher × FetcherPorts × List FetcherEvent :=
  s.fetcher.clockBuffered s.ports

theorem clocked_of_early {s : FetchStage φ μ π}
    (early : s.fetcher.returnsEarly s.ports = true) :
    ∃ f', s.clocked S =
        (f', { s.buffered.2.2.1 with fetch := (S.fetch.clock s.fetch s.ports.fetch).2 },
          s.buffered.2.2.2) ∧
      f'.contents = s.buffered.2.1.contents ∧
      f'.control = { s.fetcher.control with
        currentPenalty :=
          if 0 < s.fetcher.currentPenalty then s.fetcher.currentPenalty - 1
          else s.fetcher.misspredictPenalty
        fetchClock := if 0 < s.fetcher.currentPenalty then s.fetcher.fetchClock else 0 } := by
  have same := s.fetcher.clockBuffered_fetch s.ports (S.fetch.clock s.fetch s.ports.fetch).2
  obtain ⟨f', clocked, contents', control'⟩ := Fetcher.clock_of_early s.fetcher
    { s.ports with fetch := (S.fetch.clock s.fetch s.ports.fetch).2 } early
  rw [same] at clocked contents'
  exact ⟨f', clocked, contents', control'⟩

theorem clocked_of_fetch {s : FetchStage φ μ π}
    (reaches : s.fetcher.returnsEarly s.ports = false)
    (unsent : s.ports.fetch.sentRequests = []) :
    ∃ f' fetch', s.clocked S =
        (f', { s.buffered.2.2.1 with fetch := fetch' },
          s.buffered.2.2.2 ++ Fetcher.receptions s.buffered.2.1.fetchBufferUsage
            s.ports.fetch.readableResponses) ∧
      f'.contents =
        s.buffered.2.1.contents ++ s.ports.fetch.readableResponses.map Fetcher.freshEntry ∧
      f'.control = { s.fetcher.control with
        currentPenalty := s.fetcher.currentPenalty - 1
        fetchClock :=
          if s.fetcher.fetchClock % s.fetcher.fetchInterval = 0 then 1
          else s.fetcher.fetchClock + 1 } ∧
      fetch'.bufferSize = s.ports.fetch.bufferSize ∧
      fetch'.sentRequests =
        (if s.fetcher.fetchClock % s.fetcher.fetchInterval = 0 then [f'.request] else []) ∧
      fetch'.sentResponses = (S.fetch.clock s.fetch s.ports.fetch).2.sentResponses ∧
      fetch'.readableResponses = [] := by
  have same := s.fetcher.clockBuffered_fetch s.ports (S.fetch.clock s.fetch s.ports.fetch).2
  obtain ⟨f', fetch', clocked, contents', control', views⟩ := Fetcher.clock_of_fetch s.fetcher
    { s.ports with fetch := (S.fetch.clock s.fetch s.ports.fetch).2 } reaches
    ((S.fetch.sentRequests s.fetch s.ports.fetch).trans unsent)
  have waiting := S.fetch.readableResponses s.fetch s.ports.fetch
  rw [same, waiting] at clocked contents'
  exact ⟨f', fetch', clocked, contents', control',
    views.bufferSize.trans (S.fetch.bufferSize s.fetch s.ports.fetch), views.sentRequests,
    views.sentResponses, views.readableResponses⟩

/-- Early or not, only the fetch connection is used after the first three calls, and its
responses are those of the component fetched from. -/
theorem clocked_fetch {s : FetchStage φ μ π} (unsent : s.ports.fetch.sentRequests = []) :
    ∃ f' fetch' events, s.clocked S = (f', { s.buffered.2.2.1 with fetch := fetch' }, events) ∧
      fetch'.bufferSize = s.ports.fetch.bufferSize ∧
      fetch'.sentResponses = (S.fetch.clock s.fetch s.ports.fetch).2.sentResponses := by
  cases early : s.fetcher.returnsEarly s.ports with
  | true =>
    obtain ⟨f', clocked, _⟩ := clocked_of_early S early
    exact ⟨f', _, _, clocked, S.fetch.bufferSize s.fetch s.ports.fetch, rfl⟩
  | false =>
    obtain ⟨f', fetch', clocked, _, _, size, _, responses, _⟩ := clocked_of_fetch S early unsent
    exact ⟨f', fetch', _, clocked, size, responses⟩

/-- A cycle in which the fetcher returns early: what waits for it is discarded. -/
theorem cycle_of_early {s : FetchStage φ μ π} (early : s.fetcher.returnsEarly s.ports = true)
    (unsent : s.ports.fetch.sentRequests = []) :
    (cycle S s ()).1.fetcher.contents = s.buffered.2.1.contents ∧
    (cycle S s ()).1.fetcher.control = { s.fetcher.control with
      currentPenalty :=
        if 0 < s.fetcher.currentPenalty then s.fetcher.currentPenalty - 1
        else s.fetcher.misspredictPenalty
      fetchClock := if 0 < s.fetcher.currentPenalty then s.fetcher.fetchClock else 0 } ∧
    (cycle S s ()).1.ports.fetch.readableRequests = [] ∧
    fetcherLog (cycle S s ()).2 = s.buffered.2.2.2 ∧
    discarded (cycle S s ()).2 = s.ports.fetch.readableResponses := by
  obtain ⟨f', clocked, contents', control'⟩ := clocked_of_early S early
  unfold cycle
  rw [clocked]
  dsimp only [FetcherPorts.swapBuffers]
  rw [(parts_of_log _ _ _).1, (parts_of_log _ _ _).2.1, Connection.readableRequests_swap,
    S.fetch.sentRequests, S.fetch.readableResponses]
  exact ⟨contents', control', unsent, rfl, rfl⟩

/-- A cycle in which it goes on to fetch: what waits for it is appended. -/
theorem cycle_of_fetch {s : FetchStage φ μ π} (reaches : s.fetcher.returnsEarly s.ports = false)
    (unsent : s.ports.fetch.sentRequests = []) :
    (cycle S s ()).1.fetcher.contents =
      s.buffered.2.1.contents ++ s.ports.fetch.readableResponses.map Fetcher.freshEntry ∧
    (cycle S s ()).1.fetcher.control = { s.fetcher.control with
      currentPenalty := s.fetcher.currentPenalty - 1
      fetchClock :=
        if s.fetcher.fetchClock % s.fetcher.fetchInterval = 0 then 1
        else s.fetcher.fetchClock + 1 } ∧
    (cycle S s ()).1.ports.fetch.readableRequests =
      (if s.fetcher.fetchClock % s.fetcher.fetchInterval = 0 then
        [(cycle S s ()).1.fetcher.request] else []) ∧
    fetcherLog (cycle S s ()).2 =
      s.buffered.2.2.2 ++ Fetcher.receptions s.buffered.2.1.fetchBufferUsage
        s.ports.fetch.readableResponses ∧
    discarded (cycle S s ()).2 = [] := by
  obtain ⟨f', fetch', clocked, contents', control', _, requests, _, read⟩ :=
    clocked_of_fetch S reaches unsent
  unfold cycle
  rw [clocked]
  dsimp only [FetcherPorts.swapBuffers]
  rw [(parts_of_log _ _ _).1, (parts_of_log _ _ _).2.1, Connection.readableRequests_swap,
    requests, read]
  exact ⟨contents', control', rfl, rfl, rfl⟩

/-- No cycle changes the parameters of the fetcher, and it makes one request at the end of
a clock or none. -/
theorem cycle_parameters {s : FetchStage φ μ π} (unsent : s.ports.fetch.sentRequests = []) :
    (cycle S s ()).1.fetcher.fetchSize = s.fetcher.fetchSize ∧
    (cycle S s ()).1.fetcher.fetchInterval = s.fetcher.fetchInterval ∧
    (cycle S s ()).1.fetcher.misspredictPenalty = s.fetcher.misspredictPenalty ∧
    ((cycle S s ()).1.ports.fetch.readableRequests = [] ∨
      (cycle S s ()).1.ports.fetch.readableRequests = [(cycle S s ()).1.fetcher.request]) := by
  cases early : s.fetcher.returnsEarly s.ports with
  | true =>
    obtain ⟨_, control', requests', _⟩ := cycle_of_early S early unsent
    obtain ⟨size', interval', _, missed', _⟩ := Fetcher.fields_of_control control'
    exact ⟨size', interval', missed', .inl requests'⟩
  | false =>
    obtain ⟨_, control', requests', _⟩ := cycle_of_fetch S early unsent
    obtain ⟨size', interval', _, missed', _⟩ := Fetcher.fields_of_control control'
    refine ⟨size', interval', missed', ?_⟩
    rw [requests']
    split
    · exact .inr rfl
    · exact .inl rfl

/-- Between cycles nothing is on the sending side of the fetch connection; its
responses are those of the component fetched from. -/
theorem cycle_fetch {s : FetchStage φ μ π} (unsent : s.ports.fetch.sentRequests = []) :
    (cycle S s ()).1.ports.fetch.sentRequests = [] ∧
    (cycle S s ()).1.ports.fetch.sentResponses = [] ∧
    (cycle S s ()).1.ports.fetch.readableResponses =
      (S.fetch.clock s.fetch s.ports.fetch).2.sentResponses ∧
    (cycle S s ()).1.ports.fetch.bufferSize = s.ports.fetch.bufferSize := by
  refine ⟨Connection.sentRequests_swap _, Connection.sentResponses_swap _, ?_⟩
  obtain ⟨f', fetch', events, clocked, size, responses⟩ := clocked_fetch S unsent
  unfold cycle
  rw [clocked]
  exact ⟨(Connection.readableResponses_swap _).trans responses, size⟩

/-- The other connections depend on the first three calls only. -/
theorem cycle_ports {s : FetchStage φ μ π} (unsent : s.ports.fetch.sentRequests = []) :
    (cycle S s ()).1.ports.instructionMemory =
      (S.instructionMemory.clock s.instructionMemory
        s.buffered.2.2.1.instructionMemory).2.swapBuffers ∧
    (cycle S s ()).1.predictor = (clockPredictor S s.predictor s.buffered.2.2.1.predictor).1 ∧
    (cycle S s ()).1.ports.predictor =
      (clockPredictor S s.predictor s.buffered.2.2.1.predictor).2.map
        Connection.swapBuffers ∧
    answered (cycle S s ()).2 =
      sentResponses (clockPredictor S s.predictor s.buffered.2.2.1.predictor).2 := by
  obtain ⟨f', fetch', events, clocked, _⟩ := clocked_fetch S unsent
  unfold cycle
  rw [clocked]
  exact ⟨rfl, rfl, rfl, (parts_of_log _ _ _).2.2⟩

/-- Without a predictor no penalty is ever paid. -/
structure Unpredicted (s : FetchStage φ μ π) : Prop where
  unsent : s.ports.fetch.sentRequests = []
  predictor : s.ports.predictor = none
  penalty : s.fetcher.currentPenalty = 0

theorem Unpredicted.reaches {s : FetchStage φ μ π} (without : s.Unpredicted) :
    s.fetcher.returnsEarly s.ports = false := by
  unfold Fetcher.returnsEarly
  rw [without.predictor, without.penalty]
  rfl

theorem Unpredicted.cycle {s : FetchStage φ μ π} (without : s.Unpredicted) :
    Unpredicted (s.cycle S ()).1 := by
  obtain ⟨_, control', _⟩ := cycle_of_fetch S without.reaches without.unsent
  obtain ⟨_, _, _, _, penalty', _⟩ := Fetcher.fields_of_control control'
  obtain ⟨_, _, predictor', _⟩ := cycle_ports S without.unsent
  constructor
  · exact (cycle_fetch S without.unsent).1
  · rw [predictor']
    unfold buffered Fetcher.clockBuffered Fetcher.clockCheckPredictor Fetcher.clockSendBuffered
    rw [without.predictor]
    rfl
  · rw [penalty', without.penalty]

/-- The stage whose fetcher is as `Configure` left it. -/
def Configured (fetchSize fetchInterval misspredictPenalty : Option Int)
    (hasPredictor : Bool) (s : FetchStage φ μ π) : Prop :=
  Fetcher.configure fetchSize fetchInterval misspredictPenalty hasPredictor =
    .ok (s.fetcher, s.ports)

theorem Configured.unpredicted {fetchSize fetchInterval misspredictPenalty : Option Int}
    {s : FetchStage φ μ π}
    (configured : s.Configured fetchSize fetchInterval misspredictPenalty false) :
    s.Unpredicted := by
  obtain ⟨size, interval, penalty, _, _, _, fetcher, ports⟩ := Fetcher.configure_eq configured
  constructor
  · rw [ports]
    rfl
  · rw [ports]
    rfl
  · rw [fetcher]

end FetchStage

namespace Engine

variable {ρ : Type}

/-- What an engine does to the connection of core `i`: responses are added, requests
are read. -/
structure Serves (i : Nat) (c c' : FetchConnection) (events : List EngineEvent) : Prop where
  bufferSize : c'.bufferSize = c.bufferSize
  sentRequests : c'.sentRequests = c.sentRequests
  readableResponses : c'.readableResponses = c.readableResponses
  sentResponses : c'.sentResponses = c.sentResponses ++ delivered i events

theorem Serves.refl (i : Nat) (c : FetchConnection) : Serves i c c [] :=
  ⟨rfl, rfl, rfl, (List.append_nil _).symm⟩

theorem Serves.trans {i : Nat} {c c' c'' : FetchConnection} {events more : List EngineEvent}
    (first : Serves i c c' events) (second : Serves i c' c'' more) :
    Serves i c c'' (events ++ more) := by
  constructor
  · exact second.bufferSize.trans first.bufferSize
  · exact second.sentRequests.trans first.sentRequests
  · exact second.readableResponses.trans first.readableResponses
  · rw [second.sentResponses, first.sentResponses, delivered_append, List.append_assoc]

/-- A send on the connection of a core, with its two events. -/
theorem sendResponse_serves (i : Nat) (e : Engine ρ) (id : Nat) (r : FetchResult)
    (fetched toSend : InstructionPacket) :
    Serves i (e.connections i) ((e.sendResponseToConnection id toSend).2.connections i)
      [.fetched id r fetched, .sent id toSend (e.sendResponseToConnection id toSend).1] := by
  have silent : ∀ accepted, (id = i → accepted = false) →
      delivered i [.fetched id r fetched, .sent id toSend accepted] = [] := by
    intro accepted refused
    by_cases same : id = i
    · simp [delivered, refused same]
    · simp [delivered, same]
  unfold sendResponseToConnection
  rcases (e.connections id).sendResponse_eq toSend with ⟨refused, _⟩ | ⟨c, sent, views, _⟩
  · rw [refused]
    exact ⟨rfl, rfl, rfl, by rw [silent false fun _ => rfl, List.append_nil]⟩
  · rw [sent]
    unfold setConnection
    dsimp only
    by_cases same : i = id
    · subst same
      rw [Function.update_self]
      constructor
      · exact views.bufferSize
      · exact views.sentRequests
      · exact views.readableResponses
      · rw [views.sentResponses]
        simp [delivered]
    · rw [Function.update_of_ne same]
      exact ⟨rfl, rfl, rfl, by
        rw [silent true fun here => absurd here.symm same, List.append_nil]⟩

theorem sendBufferedAndFetch_serves (R : TraceReader ρ) (i : Nat) (e : Engine ρ) (id : Nat) :
    Serves i (e.connections i) ((e.sendBufferedAndFetch R id).2.1.connections i)
      (e.sendBufferedAndFetch R id).2.2 := by
  unfold sendBufferedAndFetch
  rcases R.fetch e.traceReader (e.fetchBuffers id) id with ⟨r, packet, reader⟩
  have sent := sendResponse_serves i
    { e with traceReader := reader, fetchBuffers := Function.update e.fetchBuffers id packet }
    id r packet { e.fetchBuffers id with nextInstruction := packet.staticInfo.instAddress }
  cases r <;> exact sent

theorem fetchLoop_serves (R : TraceReader ρ) (i id : Nat) (request : Int) (bound : Nat)
    (weight : Int) (e : Engine ρ) :
    Serves i (e.connections i) ((fetchLoop R id request bound weight e).1.connections i)
      (fetchLoop R id request bound weight e).2 := by
  induction bound generalizing weight e with
  | zero => exact .refl i _
  | succ bound ih =>
    unfold fetchLoop
    split
    · have sent := sendBufferedAndFetch_serves R i e id
      rcases result : e.sendBufferedAndFetch R id with ⟨_ | _, e', events⟩ <;> rw [result] at sent
      · exact sent.trans (ih _ e')
      · exact sent
    · exact .refl i _

theorem clockConnection_serves (R : TraceReader ρ) (bound i : Nat) (e : Engine ρ) (id : Nat) :
    Serves i (e.connections i) ((e.clockConnection R bound id).1.connections i)
      (e.clockConnection R bound id).2 := by
  unfold clockConnection
  rcases (e.connections id).getRequest_eq with ⟨none, _⟩ | ⟨request, c, rest, taken, _, views⟩
  · rw [none]
    exact .refl i _
  · rw [taken]
    have read : Serves i (e.connections i) ((e.setConnection id c).connections i) [] := by
      by_cases same : i = id
      · subst same
        unfold setConnection
        dsimp only
        rw [Function.update_self]
        exact ⟨views.bufferSize, views.sentRequests, views.readableResponses, by
          rw [views.sentResponses]; exact (List.append_nil _).symm⟩
      · unfold setConnection
        dsimp only
        rw [Function.update_of_ne same]
        exact .refl i _
    unfold fetch
    dsimp only
    split
    · exact read.trans (sendBufferedAndFetch_serves R i _ id)
    · exact read.trans (fetchLoop_serves R i id request bound _ _)

theorem clock_serves (R : TraceReader ρ) (bound i : Nat) (e : Engine ρ) :
    Serves i (e.connections i) ((e.clock R bound).1.connections i) (e.clock R bound).2 := by
  unfold clock
  apply Machine.run_induction (clockConnection R bound)
    (P := fun t _ events => Serves i (e.connections i) (t.connections i) events)
  · exact .refl i _
  · intro t ids events id before
    exact before.trans (clockConnection_serves R bound i t id)

/-- The engine as the component that core 0 fetches from, with the record of what it
did. -/
def server (R : TraceReader ρ) (bound : Nat) :
    Server (Engine ρ × List EngineEvent) Int InstructionPacket where
  clock s c :=
    let clocked := (s.1.setConnection 0 c).clock R bound
    ((clocked.1, s.2 ++ clocked.2), clocked.1.connections 0)
  bufferSize s c := (clock_serves R bound 0 (s.1.setConnection 0 c)).bufferSize
  sentRequests s c := (clock_serves R bound 0 (s.1.setConnection 0 c)).sentRequests
  readableResponses s c := (clock_serves R bound 0 (s.1.setConnection 0 c)).readableResponses

end Engine

/-- The components of a fetcher that fetches from the engine. -/
def engineServers {ρ μ π : Type} (R : TraceReader ρ) (bound : Nat)
    (instructionMemory : Server μ InstructionPacket InstructionPacket)
    (predictor : Server π PredictorPacket PredictorPacket) :
    FetchStage.Servers (Engine ρ × List EngineEvent) μ π :=
  { fetch := Engine.server R bound, instructionMemory, predictor }

/-- The stage of a machine with the given fetcher parameters, a hardwired predictor
and a simple instruction memory, on a trace of one thread, with the engine set up. -/
def FetchStage.ofTrace (size interval penalty : Nat) (p : HardwiredPredictor)
    (d : StaticDictionary) (thread : ThreadFiles) :
    FetchStage (Engine SinucaTraceReader × List EngineEvent) SimpleInstructionMemory
      HardwiredPredictor where
  fetcher := { fetchSize := size, fetchInterval := interval, misspredictPenalty := penalty,
               flagsToCheck := { sentToMemory := true, predicted := true } }
  ports := { fetch := .connect size, instructionMemory := .connect size,
             predictor := some (.connect size) }
  fetch := ((Engine.setupSimulation sinucaTraceReader (.openTrace d [thread] fun _ => 0)
    (fun _ => {}) (fun _ => .connect size) 1).2.1, [])
  instructionMemory := {}
  predictor := p

/-- The components of the stages that `ofTrace` sets up. -/
def sinucaServers : FetchStage.Servers (Engine SinucaTraceReader × List EngineEvent)
    SimpleInstructionMemory HardwiredPredictor :=
  engineServers sinucaTraceReader 16 simpleInstructionMemory hardwiredPredictor.toServer

/-- A program of one instruction of one octet. -/
def oneOctet : StaticDictionary where
  blocks := [[{ instSize := 1 }]]
  nonempty := by simp
  size_lt := by simp

/-- A hardwired predictor that is never wrong, and a run of `oneOctet`. -/
def oneOctetStage (interval penalty : Nat) : FetchStage (Engine SinucaTraceReader × List EngineEvent)
    SimpleInstructionMemory HardwiredPredictor :=
  .ofTrace 2 interval penalty {} oneOctet
    { dynamic := List.replicate 4 (.basicBlock 0), memory := [] }

end Sinuca3.Source
