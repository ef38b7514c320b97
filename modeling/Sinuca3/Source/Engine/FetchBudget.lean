import Sinuca3.Source.Engine.PredictedStage
import Sinuca3.Source.Engine.RequestBudget

/-!
# What the fetch buffer holds and what is asked for

A request is for the octets that the entries leave of the buffer. It is answered a
cycle later, and the answer read one more cycle later: in the meantime entries leave,
and the answer to an earlier request may arrive.
-/
namespace Sinuca3.Source
open Lib

/-- The request for the octets that the entries leave. -/
theorem Fetcher.request_eq {f : Fetcher} {held : List InstructionPacket}
    (instructions : f.contents.map (·.instruction) = held) (fits : bytes held < f.fetchSize)
    (small : f.fetchSize < 2147483648) : f.request = (f.fetchSize : Int) - bytes held := by
  have sizes : (f.contents.map fun entry => entry.instruction.staticInfo.instSize) =
      held.map fun p => p.staticInfo.instSize := by
    rw [← instructions, List.map_map]
    rfl
  unfold request fetchBufferByteUsage
  rw [sizes]
  exact sub_foldl_sizes fits small

/-- A connection that takes all of a few requests. -/
theorem Connection.takes_all {Req Resp : Type} {c : Connection Req Resp}
    (unsent : c.sentRequests = []) {n : Nat} (fits : n ≤ c.bufferSize) : c.takes n = n := by
  unfold takes
  rw [unsent, List.length_nil]
  split <;> omega

namespace FetchStage

variable {ρ μ π : Type}

/-- Between cycles, with the instructions `held` in the fetch buffer: they do not fill
it, and a request under way is for what they leave. -/
structure Asking (s : FetchStage (Engine ρ × List EngineEvent) μ π)
    (held : List InstructionPacket) : Prop where
  small : s.fetcher.fetchSize < 2147483648
  unsent : s.ports.fetch.sentRequests = []
  unanswered : s.ports.fetch.sentResponses = []
  oneCore : s.fetch.1.numberOfFetchers = 1
  bufferedSized : Engine.Sized (s.fetch.1.fetchBuffers 0)
  instructions : s.fetcher.contents.map (·.instruction) = held
  heldSized : ∀ p ∈ held, Engine.Sized p
  waitingSized : ∀ p ∈ s.ports.fetch.readableResponses, Engine.Sized p
  fits : bytes held < s.fetcher.fetchSize
  asked : s.ports.fetch.readableRequests = [] ∨
    s.ports.fetch.readableRequests = [(s.fetcher.fetchSize : Int) - bytes held]

/-- As `Configure` left it. -/
theorem Configured.asking {fetchSize fetchInterval misspredictPenalty : Option Int}
    {hasPredictor : Bool} {s : FetchStage (Engine ρ × List EngineEvent) μ π}
    (configured : s.Configured fetchSize fetchInterval misspredictPenalty hasPredictor)
    (small : s.fetcher.fetchSize < 2147483648) (oneCore : s.fetch.1.numberOfFetchers = 1)
    (bufferedSized : Engine.Sized (s.fetch.1.fetchBuffers 0)) :
    s.Asking [] ∧ s.ports.fetch.readableResponses = [] ∧ s.ports.fetch.readableRequests = [] := by
  obtain ⟨size, _, _, positive, _, _, fetcher, ports⟩ := Fetcher.configure_eq configured
  have port := congrArg FetcherPorts.fetch ports
  dsimp only at port
  have requests : s.ports.fetch.readableRequests = [] := by
    rw [port]
    rfl
  have waiting : s.ports.fetch.readableResponses = [] := by
    rw [port]
    rfl
  refine ⟨?_, waiting, requests⟩
  constructor
  · exact small
  · rw [port]
    rfl
  · rw [port]
    rfl
  · exact oneCore
  · exact bufferedSized
  · rw [fetcher]
    rfl
  · intro p member
    cases member
  · rw [waiting]
    intro p member
    cases member
  · rw [fetcher]
    exact positive
  · exact Or.inl requests

variable (R : TraceReader ρ) (bound : Nat)
  (instructionMemory : Server μ InstructionPacket InstructionPacket)
  (predictor : Server π PredictorPacket PredictorPacket)

/-- The effect of a cycle in which what stays and what is taken fit in the buffer. The
answers that wait then leave room for what was held when they were asked for. -/
theorem Asking.cycle {s : FetchStage (Engine ρ × List EngineEvent) μ π}
    {held staying : List InstructionPacket} (before : s.Asking held)
    (left : s.buffered.2.1.contents.map (·.instruction) = staying)
    (old : ∀ p ∈ staying, p ∈ held)
    (room : bytes staying + bytes s.taken < s.fetcher.fetchSize)
    (sized : ∀ event ∈ (s.cycle (engineServers R bound instructionMemory predictor) ()).1.fetch.2,
      event.SizedAnswer) :
    Asking (s.cycle (engineServers R bound instructionMemory predictor) ()).1
        (staying ++ s.taken) ∧
      ((s.cycle (engineServers R bound instructionMemory predictor)
          ()).1.ports.fetch.readableResponses = [] ∨
        s.ports.fetch.readableRequests ≠ [] ∧
          bytes (s.cycle (engineServers R bound instructionMemory predictor)
            ()).1.ports.fetch.readableResponses + bytes held < s.fetcher.fetchSize) ∧
      ∀ slot ∈ Fetcher.slots
          (fetcherLog (s.cycle (engineServers R bound instructionMemory predictor) ()).2),
        slot < s.fetcher.fetchSize := by
  obtain ⟨small, unsent, unanswered, oneCore, bufferedSized, instructions, heldSized,
    waitingSized, fits, asked⟩ := before
  obtain ⟨unsent', unanswered', waiting', _⟩ :=
    cycle_fetch (engineServers R bound instructionMemory predictor) unsent
  obtain ⟨contents', events, _⟩ :=
    cycle_taken (engineServers R bound instructionMemory predictor) unsent
  have quiet := (Fetcher.appended_slots_of_quiet (s.fetcher.clockBuffered_frame s.ports).2.2).2
  -- What the engine answers.
  obtain ⟨answers, answersSized, bufferedSized', oneCore'⟩ := Engine.server_answers R bound
    s.fetch s.ports.fetch oneCore bufferedSized unanswered
    (by
      rcases asked with none | one
      · exact Or.inl none
      · exact Or.inr ⟨_, one, by omega, by omega⟩)
    sized
  have takenSized : ∀ p ∈ s.taken, Engine.Sized p := by
    intro p member
    unfold taken at member
    split at member
    · cases member
    · exact waitingSized p member
  have instructions' : (s.cycle (engineServers R bound instructionMemory predictor)
      ()).1.fetcher.contents.map (·.instruction) = staying ++ s.taken := by
    rw [contents', List.map_append, left, List.map_map]
    congr 1
    exact List.map_id _
  have allSized : ∀ p ∈ staying ++ s.taken, Engine.Sized p := by
    intro p member
    rcases List.mem_append.mp member with stays | comes
    · exact heldSized p (old p stays)
    · exact takenSized p comes
  have usage : s.buffered.2.1.fetchBufferUsage = staying.length := by
    rw [← Fetcher.contents_length, ← left, List.length_map]
  have lengths := length_le_bytes allSized
  rw [List.length_append, bytes_append] at lengths
  obtain ⟨size', _, _, requests'⟩ :=
    cycle_parameters (engineServers R bound instructionMemory predictor) unsent
  have fits' : bytes (staying ++ s.taken) < s.fetcher.fetchSize := by
    rw [bytes_append]
    exact room
  rw [← size'] at small fits'
  refine ⟨?_, ?_, ?_⟩
  · constructor
    · exact small
    · exact unsent'
    · exact unanswered'
    · exact oneCore'
    · exact bufferedSized'
    · exact instructions'
    · exact allSized
    · rw [waiting']
      exact answersSized
    · exact fits'
    · rw [Fetcher.request_eq instructions' fits' small] at requests'
      exact requests'
  · rw [waiting']
    rcases answers with none | ⟨r, single, fewer⟩
    · exact Or.inl none
    · right
      rcases asked with none | one
      · rw [none] at single
        cases single
      · rw [single] at one
        cases one
        constructor
        · rw [single]
          exact List.cons_ne_nil _ _
        · change bytes ((Engine.server R bound).clock s.fetch s.ports.fetch).2.sentResponses +
            bytes held < _
          omega
  · intro slot member
    rw [events, Fetcher.slots_append] at member
    change slot ∈ Fetcher.slots (s.fetcher.clockBuffered s.ports).2.2.2 ++ _ at member
    rw [quiet, List.nil_append, usage] at member
    unfold takings at member
    unfold taken at lengths room
    split at member
    · cases member
    · rename_i reaches
      rw [if_neg reaches] at lengths room
      rw [Fetcher.slots_receptions, List.mem_range'_1] at member
      omega

end FetchStage

end Sinuca3.Source
