import Sinuca3.Source.Engine.BoomFlow
import Sinuca3.Source.Engine.BoomStage
import Sinuca3.Source.Engine.RequestBudget
import Sinuca3.Source.StdComponents.BoomFetchCohorts

/-!
# What the buffer of boom fetch holds and what is asked for

The stage with an engine and a predictor that answers at once, seen as a flow of octets.
-/
namespace Sinuca3.Source
open Lib

/-- The octets that entries take. -/
def entryBytes (entries : List BoomFetchBufferEntry) : Nat := bytes (entries.map (·.instruction))

@[simp] theorem entryBytes_nil : entryBytes [] = 0 := rfl

@[simp] theorem entryBytes_append (entries more : List BoomFetchBufferEntry) :
    entryBytes (entries ++ more) = entryBytes entries + entryBytes more := by
  unfold entryBytes
  rw [List.map_append, bytes_append]

@[simp] theorem entryBytes_responded (entries : List BoomFetchBufferEntry) :
    entryBytes (entries.map BoomFetch.responded) = entryBytes entries := by
  unfold entryBytes
  rw [List.map_map]
  exact congrArg bytes (List.map_congr_left fun e _ => BoomFetch.responded_instruction e)

@[simp] theorem entryBytes_sent (entries : List BoomFetchBufferEntry) :
    entryBytes (entries.map .sent) = entryBytes entries := by
  unfold entryBytes
  rw [List.map_map]
  rfl

@[simp] theorem entryBytes_freshEntry (packets : List InstructionPacket) :
    entryBytes (packets.map BoomFetch.freshEntry) = bytes packets := by
  unfold entryBytes
  rw [List.map_map]
  exact congrArg bytes (List.map_id packets)

theorem length_le_entryBytes {entries : List BoomFetchBufferEntry}
    (sized : ∀ e ∈ entries, Engine.Sized e.instruction) : entries.length ≤ entryBytes entries := by
  have packets : ∀ p ∈ entries.map (·.instruction), Engine.Sized p := by
    intro p member
    obtain ⟨e, here, rfl⟩ := List.mem_map.mp member
    exact sized e here
  have few := length_le_bytes packets
  rw [List.length_map] at few
  exact few

/-- The request for the octets that the entries leave. -/
theorem BoomFetch.request_eq {f : BoomFetch} (fits : entryBytes f.contents < f.fetchSize)
    (small : f.fetchSize < 2147483648) : f.request = (f.fetchSize : Int) - entryBytes f.contents := by
  have sizes : ((List.range f.fetchBufferUsage).map fun i =>
      (f.fetchBuffer i).instruction.staticInfo.instSize) =
      (f.contents.map (·.instruction)).map fun p : InstructionPacket => p.staticInfo.instSize := by
    unfold contents Cells.used
    rw [List.map_map, List.map_map]
    rfl
  unfold request fetchBufferByteUsage
  rw [sizes]
  exact sub_foldl_sizes fits small

namespace BoomStage

variable {ρ μ π : Type}

/-- Between cycles. -/
structure Cohorts (s : BoomStage (Engine ρ × List EngineEvent) μ π)
    (answered asked fresh : List BoomFetchBufferEntry) : Prop where
  buffer : s.boomFetch.Cohorts answered asked fresh
  prompt : s.boomFetch.Prompt s.ports answered
  unanswered : s.ports.predictor.sentResponses = []
  queries : ∀ q ∈ s.ports.predictor.readableRequests, q.type = .requestQuery
  found : s.ports.predictor.readableRequests.length = asked.length
  small : s.boomFetch.fetchSize < 2147483648
  fetchUnsent : s.ports.fetch.sentRequests = []
  fetchUnanswered : s.ports.fetch.sentResponses = []
  capacity : s.ports.fetch.bufferSize = s.boomFetch.fetchSize
  oneCore : s.fetch.1.numberOfFetchers = 1
  bufferedSized : Engine.Sized (s.fetch.1.fetchBuffers 0)
  heldSized : ∀ e ∈ s.boomFetch.contents, Engine.Sized e.instruction
  waitingSized : ∀ p ∈ s.ports.fetch.readableResponses, Engine.Sized p
  fits : entryBytes s.boomFetch.contents < s.boomFetch.fetchSize
  request : s.ports.fetch.readableRequests = [] ∨ s.ports.fetch.readableRequests =
    [(s.boomFetch.fetchSize : Int) - entryBytes s.boomFetch.contents]

/-- The stage as a flow, with the octets of the entries that left in the last cycle. -/
def flow (s : BoomStage (Engine ρ × List EngineEvent) μ π)
    (answered asked fresh : List BoomFetchBufferEntry) (left : Nat) : BoomFlow where
  currentPenalty := s.boomFetch.currentPenalty
  fetchClock := s.boomFetch.fetchClock
  request := s.ports.fetch.readableRequests.head?.map Int.toNat
  waiting := bytes s.ports.fetch.readableResponses
  fresh := entryBytes fresh
  asked := entryBytes asked
  answered := entryBytes answered
  left
  buffered := (s.fetch.1.fetchBuffers 0).staticInfo.instSize.toNat

section Cycle

variable {s : BoomStage (Engine ρ × List EngineEvent) μ π}
  {answered asked fresh : List BoomFetchBufferEntry}

theorem Cohorts.contents (cohorts : s.Cohorts answered asked fresh) :
    s.boomFetch.contents = answered ++ asked ++ fresh := cohorts.buffer.aligned.contents

theorem Cohorts.held (cohorts : s.Cohorts answered asked fresh) (left : Nat) :
    (s.flow answered asked fresh left).held = entryBytes s.boomFetch.contents := by
  rw [cohorts.contents, entryBytes_append, entryBytes_append]
  rfl

/-- What the engine does about the request. -/
theorem Cohorts.answers (cohorts : s.Cohorts answered asked fresh) (left : Nat)
    (R : TraceReader ρ) {bound : Nat} (enough : s.boomFetch.fetchSize ≤ bound)
    (goes : ∀ event ∈ ((Engine.server R bound).clock s.fetch s.ports.fetch).1.2,
      event.SizedAnswer ∧ event.Continues) :
    BoomFlow.Answers (s.flow answered asked fresh left).request
        (s.flow answered asked fresh left).buffered
        (bytes ((Engine.server R bound).clock s.fetch s.ports.fetch).2.sentResponses)
        (((Engine.server R bound).clock s.fetch s.ports.fetch).1.1.fetchBuffers
          0).staticInfo.instSize.toNat ∧
      (∀ p ∈ ((Engine.server R bound).clock s.fetch s.ports.fetch).2.sentResponses,
        Engine.Sized p) ∧
      Engine.Sized (((Engine.server R bound).clock s.fetch s.ports.fetch).1.1.fetchBuffers 0) ∧
      ((Engine.server R bound).clock s.fetch s.ports.fetch).1.1.numberOfFetchers = 1 := by
  have fits := cohorts.fits
  have small := cohorts.small
  have capacity := cohorts.capacity
  obtain ⟨below, sized, bufferedSized, oneCore⟩ := Engine.server_answers R bound s.fetch
    s.ports.fetch cohorts.oneCore cohorts.bufferedSized cohorts.fetchUnanswered
    (cohorts.request.imp id fun some => ⟨_, some, by omega, by omega⟩)
    fun event member => (goes event member).1
  obtain ⟨quiet, fills⟩ := Engine.server_fills R bound s.fetch s.ports.fetch cohorts.oneCore
    cohorts.bufferedSized cohorts.fetchUnanswered goes
  refine ⟨?_, sized, bufferedSized, oneCore⟩
  unfold flow
  dsimp only
  generalize (Engine.server R bound).clock s.fetch s.ports.fetch = clocked at below quiet fills ⊢
  rcases cohorts.request with none | some
  · obtain ⟨silent, same⟩ := quiet none
    rw [none, silent, same]
    refine ⟨fun _ => ⟨rfl, rfl⟩, ?_, ?_, ?_⟩
    all_goals
      intro r wrong
      cases wrong
  · obtain ⟨reaches, full⟩ := fills _ some (by omega) (by omega) (by omega) (by omega)
    rw [some]
    refine ⟨?_, ?_, ?_, ?_⟩
    · intro wrong
      cases wrong
    · rintro r same
      cases same
      rcases below with silent | ⟨r, same, fewer⟩
      · rw [silent]
        exact .inl rfl
      · rw [some] at same
        cases same
        exact .inr (by omega)
    · rintro r same
      cases same
      omega
    · rintro r same covered
      cases same
      obtain ⟨silent, kept⟩ := full (by omega)
      rw [silent, kept]
      exact ⟨rfl, rfl⟩

/-- Where the boom fetch goes on to fetch outside of a penalty, some entry has a response. -/
theorem Cohorts.reaches (cohorts : s.Cohorts answered asked fresh) (S : FetchStage.Servers
      (Engine ρ × List EngineEvent) μ π)
    (reaches : s.boomFetch.returnsEarly (s.found S) = false) :
    s.boomFetch.currentPenalty ≤ 3 ∧ (s.boomFetch.currentPenalty = 0 →
      entryBytes answered ≠ 0 ∨ entryBytes asked ≠ 0) := by
  obtain ⟨inside, confirmed⟩ := BoomFetch.reaches_iff.mp reaches
  refine ⟨inside, fun outside => ?_⟩
  by_contra none
  rw [not_or, not_not, not_not] at none
  have sized := cohorts.heldSized
  rw [cohorts.contents] at sized
  have noneAnswered : answered = [] := List.length_eq_zero_iff.mp (Nat.le_zero.mp (by
    rw [← none.1]
    exact length_le_entryBytes fun e member =>
      sized e (List.mem_append_left _ (List.mem_append_left _ member))))
  have noneAsked : asked = [] := List.length_eq_zero_iff.mp (Nat.le_zero.mp (by
    rw [← none.2]
    exact length_le_entryBytes fun e member =>
      sized e (List.mem_append_left _ (List.mem_append_right _ member))))
  subst noneAnswered noneAsked
  have prompt := cohorts.prompt
  have missed : (s.boomFetch.clockBuffered (s.found S)).1 = true :=
    cohorts.buffer.missed ⟨prompt.memoryUnsent, prompt.memorySize, prompt.predictorUnsent,
      prompt.predictorSize, prompt.responses⟩
  exact Bool.noConfusion (missed.symm.trans (confirmed outside))

theorem Cohorts.foundPrompt (cohorts : s.Cohorts answered asked fresh)
    (S : FetchStage.Servers (Engine ρ × List EngineEvent) μ π) :
    s.boomFetch.Prompt (s.found S) answered := by
  obtain ⟨memoryUnsent, memorySize, predictorUnsent, predictorSize, responses⟩ := cohorts.prompt
  exact ⟨memoryUnsent, memorySize, predictorUnsent, predictorSize, responses⟩

/-- The octets that a cycle takes. -/
theorem entryBytes_taken (s : BoomStage (Engine ρ × List EngineEvent) μ π)
    (S : FetchStage.Servers (Engine ρ × List EngineEvent) μ π)
    (answered asked fresh : List BoomFetchBufferEntry) (left : Nat) :
    entryBytes (s.boomFetch.taken (s.found S)) =
      (s.flow answered asked fresh left).taken (!s.boomFetch.returnsEarly (s.found S)) := by
  have waiting : (s.found S).fetch.readableResponses = s.ports.fetch.readableResponses :=
    S.fetch.readableResponses s.fetch s.ports.fetch
  unfold BoomFetch.taken BoomFlow.taken
  cases s.boomFetch.returnsEarly (s.found S) with
  | true => rfl
  | false =>
    rw [if_neg Bool.false_ne_true, Bool.not_false, if_pos rfl, entryBytes_freshEntry, waiting]
    rfl

/-- The clock of a boom fetch that has room for what it takes. -/
theorem Cohorts.clock (cohorts : s.Cohorts answered asked fresh)
    (S : FetchStage.Servers (Engine ρ × List EngineEvent) μ π) {left : Nat}
    (room : BoomFlow.Roomy s.boomFetch.fetchSize (!s.boomFetch.returnsEarly (s.found S))
      (s.flow answered asked fresh left)) :
    (s.cycle S ()).1.boomFetch.Cohorts (asked.map BoomFetch.responded) (fresh.map .sent)
        (s.boomFetch.taken (s.found S)) ∧
      ∀ e ∈ s.boomFetch.taken (s.found S), Engine.Sized e.instruction := by
  have sized := cohorts.heldSized
  rw [cohorts.contents] at sized
  have takenSized : ∀ e ∈ s.boomFetch.taken (s.found S), Engine.Sized e.instruction := by
    have waiting : (s.found S).fetch.readableResponses = s.ports.fetch.readableResponses :=
      S.fetch.readableResponses s.fetch s.ports.fetch
    intro e member
    unfold BoomFetch.taken at member
    split at member
    · cases member
    · rw [waiting] at member
      obtain ⟨p, here, rfl⟩ := List.mem_map.mp member
      exact cohorts.waitingSized p here
  refine ⟨?_, takenSized⟩
  have few := length_le_entryBytes takenSized
  have askedFew : asked.length ≤ entryBytes asked := length_le_entryBytes fun e member =>
    sized e (List.mem_append_left _ (List.mem_append_right _ member))
  have freshFew : fresh.length ≤ entryBytes fresh := length_le_entryBytes fun e member =>
    sized e (List.mem_append_right _ member)
  unfold BoomFlow.Roomy at room
  rw [← entryBytes_taken] at room
  unfold flow at room
  dsimp only at room
  obtain ⟨clocked, result, boomFetch, _⟩ := s.cycle_eq S
  rw [boomFetch, result]
  exact cohorts.buffer.clock (cohorts.foundPrompt S) (by omega)

/-- A cycle of a stage that has room for what it takes: what is asked about is answered, and
what is new is asked about. -/
theorem Cohorts.cycle (cohorts : s.Cohorts answered asked fresh) (R : TraceReader ρ) {bound : Nat}
    (instructionMemory : Server μ InstructionPacket InstructionPacket) (P : InOrderPredictor π)
    (prompt : ∀ t, P.pending t = []) (enough : s.boomFetch.fetchSize ≤ bound) {left : Nat}
    (room : BoomFlow.Roomy s.boomFetch.fetchSize (!s.boomFetch.returnsEarly
      (s.found (engineServers R bound instructionMemory P.toServer)))
        (s.flow answered asked fresh left))
    (goes : ∀ event ∈ (s.cycle (engineServers R bound instructionMemory P.toServer) ()).1.fetch.2,
      event.SizedAnswer ∧ event.Continues) :
    (s.cycle (engineServers R bound instructionMemory P.toServer) ()).1.Cohorts
      (asked.map BoomFetch.responded) (fresh.map .sent)
      (s.boomFetch.taken (s.found (engineServers R bound instructionMemory P.toServer))) := by
  obtain ⟨buffer, takenSized⟩ :=
    cohorts.clock (engineServers R bound instructionMemory P.toServer) room
  obtain ⟨clocked, result, boomFetch, fetchState, fetchPort, memoryPort, predictorState,
    predictorPort⟩ := s.cycle_eq (engineServers R bound instructionMemory P.toServer)
  obtain ⟨memory, predictor, capacity, responses, requests⟩ := cohorts.buffer.clockConnections
    (cohorts.foundPrompt (engineServers R bound instructionMemory P.toServer))
    (((engineServers R bound instructionMemory P.toServer).fetch.sentRequests s.fetch
      s.ports.fetch).trans cohorts.fetchUnsent)
  obtain ⟨count, control⟩ := s.boomFetch.clock_control
    (s.found (engineServers R bound instructionMemory P.toServer))
  obtain ⟨size, _⟩ := BoomFetch.fields_of_control control
  rw [← result] at memory predictor capacity responses requests size
  rw [found_predictor] at predictor
  rw [← boomFetch] at size requests
  change _ = s.boomFetch.fetchSize at size
  rw [fetchState] at goes
  obtain ⟨_, waitingSized, bufferedSized, oneCore⟩ := cohorts.answers left R enough goes
  have sized := cohorts.heldSized
  rw [cohorts.contents] at sized
  -- The predictor answers all queries of the last cycle.
  have kept := P.sentRequests s.predictor clocked.2.1.predictor
  rw [predictor.sentRequests] at kept
  have answering := P.inOrder s.predictor clocked.2.1.predictor
    (predictor.sentResponses.trans cohorts.unanswered)
    (by rw [predictor.readableRequests]; exact cohorts.queries)
  rw [prompt, prompt, List.nil_append, List.append_nil, predictor.readableRequests] at answering
  have answers := congrArg List.length answering
  rw [List.length_map, List.length_map, cohorts.found] at answers
  have held : entryBytes (s.cycle (engineServers R bound instructionMemory P.toServer)
      ()).1.boomFetch.contents < s.boomFetch.fetchSize := by
    rw [buffer.aligned.contents, List.nil_append, entryBytes_append, entryBytes_append,
      entryBytes_responded, entryBytes_sent, entryBytes_taken s _ answered asked fresh left]
    exact room
  rw [← size] at held
  refine ⟨buffer, ⟨?_, ?_, ?_, ?_, ?_⟩, ?_, ?_, ?_, ?_, ?_, ?_, ?_, ?_, ?_, ?_, ?_, held, ?_⟩
  · rw [memoryPort]
    exact Connection.sentRequests_swap _
  · rw [memoryPort, Connection.bufferSize_swap, size, ← memory]
    exact instructionMemory.bufferSize _ _
  · rw [predictorPort]
    exact Connection.sentRequests_swap _
  · rw [predictorPort, Connection.bufferSize_swap, size, ← cohorts.prompt.predictorSize,
      ← predictor.bufferSize]
    exact P.bufferSize _ _
  · rw [predictorPort, Connection.readableResponses_swap, List.length_map]
    exact answers.symm
  · rw [predictorPort]
    exact Connection.sentResponses_swap _
  · rw [predictorPort, Connection.readableRequests_swap]
    change ∀ q ∈ (P.clock s.predictor clocked.2.1.predictor).2.sentRequests, _
    rw [kept]
    intro q member
    obtain ⟨entry, _, rfl⟩ := List.mem_map.mp member
    rfl
  · rw [predictorPort, Connection.readableRequests_swap]
    change (P.clock s.predictor clocked.2.1.predictor).2.sentRequests.length = _
    rw [kept, List.length_map, List.length_map]
  · rw [size]
    exact cohorts.small
  · rw [fetchPort]
    exact Connection.sentRequests_swap _
  · rw [fetchPort]
    exact Connection.sentResponses_swap _
  · rw [fetchPort, Connection.bufferSize_swap, capacity, size, ← cohorts.capacity]
    exact (Engine.server R bound).bufferSize s.fetch s.ports.fetch
  · rw [fetchState]
    exact oneCore
  · rw [fetchState]
    exact bufferedSized
  · rw [buffer.aligned.contents, List.nil_append]
    intro e member
    rcases List.mem_append.mp member with old | new
    · rcases List.mem_append.mp old with first | second
      · obtain ⟨entry, here, rfl⟩ := List.mem_map.mp first
        rw [BoomFetch.responded_instruction]
        exact sized entry (List.mem_append_left _ (List.mem_append_right _ here))
      · obtain ⟨entry, here, rfl⟩ := List.mem_map.mp second
        exact sized entry (List.mem_append_right _ here)
    · exact takenSized e new
  · rw [fetchPort, Connection.readableResponses_swap, responses]
    exact waitingSized
  · rw [fetchPort, Connection.readableRequests_swap, requests,
      BoomFetch.request_eq held (by rw [size]; exact cohorts.small)]
    split
    · exact .inr rfl
    · exact .inl rfl

/-- The octets move as the flow says. -/
theorem Cohorts.flow_cycle (cohorts : s.Cohorts answered asked fresh) (R : TraceReader ρ)
    {bound : Nat} (instructionMemory : Server μ InstructionPacket InstructionPacket)
    (P : InOrderPredictor π) (enough : s.boomFetch.fetchSize ≤ bound) (left : Nat)
    (goes : ∀ event ∈ (s.cycle (engineServers R bound instructionMemory P.toServer) ()).1.fetch.2,
      event.SizedAnswer ∧ event.Continues)
    (after : (s.cycle (engineServers R bound instructionMemory P.toServer) ()).1.Cohorts
      (asked.map BoomFetch.responded) (fresh.map .sent)
      (s.boomFetch.taken (s.found (engineServers R bound instructionMemory P.toServer)))) :
    BoomFlow.Cycle s.boomFetch.fetchSize s.boomFetch.fetchInterval s.boomFetch.misspredictPenalty
      (!s.boomFetch.returnsEarly (s.found (engineServers R bound instructionMemory P.toServer)))
      (s.flow answered asked fresh left)
      ((s.cycle (engineServers R bound instructionMemory P.toServer) ()).1.flow
        (asked.map BoomFetch.responded) (fresh.map .sent)
        (s.boomFetch.taken (s.found (engineServers R bound instructionMemory P.toServer)))
        (entryBytes answered)) := by
  have taken := entryBytes_taken s (engineServers R bound instructionMemory P.toServer)
    answered asked fresh left
  have held := after.held (entryBytes answered)
  have reaches := cohorts.reaches (engineServers R bound instructionMemory P.toServer)
  have fits := after.fits
  have small := after.small
  obtain ⟨clocked, result, boomFetch, fetchState, fetchPort, _⟩ :=
    s.cycle_eq (engineServers R bound instructionMemory P.toServer)
  obtain ⟨_, _, _, responses, requests⟩ := cohorts.buffer.clockConnections
    (cohorts.foundPrompt (engineServers R bound instructionMemory P.toServer))
    (((engineServers R bound instructionMemory P.toServer).fetch.sentRequests s.fetch
      s.ports.fetch).trans cohorts.fetchUnsent)
  obtain ⟨count, control⟩ := s.boomFetch.clock_control
    (s.found (engineServers R bound instructionMemory P.toServer))
  rw [← result] at responses requests control
  rw [← boomFetch] at requests control
  obtain ⟨size, _, tick, _, _, penalty, _⟩ := BoomFetch.fields_of_control control
  change _ = s.boomFetch.fetchSize at size
  dsimp only at tick penalty
  rw [fetchState] at goes
  obtain ⟨answers, _⟩ := cohorts.answers left R enough goes
  rw [BoomFetch.request_eq fits small] at requests
  have readable := (congrArg Connection.readableRequests fetchPort).trans
    ((Connection.readableRequests_swap _).trans requests)
  have waiting : (s.cycle (engineServers R bound instructionMemory P.toServer)
      ()).1.ports.fetch.readableResponses = ((Engine.server R bound).clock s.fetch
        s.ports.fetch).2.sentResponses := by
    rw [fetchPort, Connection.readableResponses_swap]
    exact responses
  have buffered : (s.cycle (engineServers R bound instructionMemory P.toServer)
      ()).1.fetch.1 = ((Engine.server R bound).clock s.fetch s.ports.fetch).1.1 := by
    rw [fetchState]
    rfl
  rw [← waiting, ← buffered] at answers
  clear after requests responses fetchPort fetchState boomFetch waiting buffered goes
  generalize (s.cycle (engineServers R bound instructionMemory P.toServer) ()).1 = t
    at held fits small size tick penalty answers readable ⊢
  refine ⟨answers, entryBytes_sent fresh, entryBytes_responded asked, rfl, ?_, ?_, ?_⟩
  · by_cases due : s.boomFetch.returnsEarly
        (s.found (engineServers R bound instructionMemory P.toServer)) = false ∧
          s.boomFetch.fetchClock % s.boomFetch.fetchInterval = 0
    · right
      rw [if_pos due] at readable
      rw [if_neg (by rw [due.1]; exact Bool.false_ne_true), if_pos due.2] at tick
      refine ⟨due.2, tick, ?_⟩
      rw [held]
      unfold flow
      dsimp only
      have rest : ((t.boomFetch.fetchSize : Int) - entryBytes t.boomFetch.contents).toNat =
          s.boomFetch.fetchSize - entryBytes t.boomFetch.contents := by omega
      rw [readable, List.head?_cons, Option.map_some, rest]
    · left
      rw [if_neg due] at readable
      unfold flow
      dsimp only
      rw [readable]
      rfl
  · intro early
    rw [Bool.not_eq_false'] at early
    rw [early] at taken readable penalty
    rw [if_neg fun both => Bool.noConfusion both.1] at readable
    refine ⟨?_, ?_, taken, ?_⟩
    · exact (BoomFetch.returnsEarly_iff.mp early).imp_right And.left
    · unfold flow
      dsimp only
      rw [readable]
      rfl
    · unfold flow
      dsimp only
      rw [penalty]
      by_cases outside : s.boomFetch.currentPenalty = 0
      · rw [if_pos ⟨rfl, outside⟩, if_neg (by omega)]
      · rw [if_neg fun both => outside both.2, if_pos (by omega)]
  · intro fetching
    rw [Bool.not_eq_true'] at fetching
    obtain ⟨inside, confirmed⟩ := reaches fetching
    rw [fetching] at taken penalty
    refine ⟨inside, confirmed, taken, ?_⟩
    unfold flow
    dsimp only
    rw [penalty, if_neg fun both => Bool.noConfusion both.1]

end Cycle

end BoomStage

end Sinuca3.Source
