import Mathlib.Data.List.Chain
import Sinuca3.Source.StdComponents.Memory
import Sinuca3.Source.StdComponents.Ras

/-!
# Components that respond immediately

The data memory and the return address stack are to handle in a cycle every request
accepted in the cycle before. They read one request of each connection, and the swap at
the end of the cycle throws the others away.
-/
namespace Sinuca3.Guarantees
open Sinuca3.Source Lib

/-- A component after a cycle, and what happened on its connections in it. -/
structure CycleRecord (σ : Type) (n : Nat) (Req Resp : Type) where
  component : σ
  log : ComponentLog n Req Resp

section Recorded

variable {σ Req Resp : Type} {n : Nat}

def recordedCycle (clock : ComponentClock σ n Req Resp) (s : σ × Connections n Req Resp)
    (c : ClientCycle n Req) :
    (σ × Connections n Req Resp) × List (CycleRecord σ n Req Resp) :=
  let cycle := clock.cycle s c
  (cycle.1, [⟨cycle.1.1, cycle.2⟩])

/-- The requests accepted in a cycle, by connection. -/
def CycleRecord.requests (r : CycleRecord σ n Req Resp) : List Req :=
  (List.finRange n).flatMap fun id => r.log.accepted id

/-- No connection has more than one request waiting. -/
def OneWaiting (s : σ × Connections n Req Resp) : Prop :=
  ∀ id, (s.2 id).readableRequests.length ≤ 1

/-- Requests processed in the cycle after the one they are accepted in. -/
def Drained (r r' : CycleRecord σ n Req Resp) : Prop :=
  ∀ id, r'.log.processed id = r.log.accepted id

variable (respond : σ → Req → σ × Option Resp) {α : Type} (asked : Req → Option α)
  (answered : Resp → α)

/-- Handled in every way there is. -/
structure Handled (r r' : CycleRecord σ n Req Resp) : Prop where
  drained : Drained r r'
  component : r'.component = afterRequests respond r.component r.requests
  answers : ∀ id, (r'.log.answered id).map answered = (r.log.accepted id).filterMap asked

/-- Between cycles nothing is sent, and what was accepted in the last is waiting. -/
structure BetweenCycles (s : σ × Connections n Req Resp) (log : List (CycleRecord σ n Req Resp)) :
    Prop where
  sentRequests : ∀ id, (s.2 id).sentRequests = []
  sentResponses : ∀ id, (s.2 id).sentResponses = []
  component : ∀ r ∈ log.getLast?, s.1 = r.component
  waiting : ∀ id, (s.2 id).readableRequests = log.getLast?.elim [] fun r => r.log.accepted id

theorem BetweenCycles.connect [Inhabited Req] [Inhabited Resp] (component : σ)
    (bufferSizes : Fin n → Nat) :
    BetweenCycles (component, fun id => (.connect (bufferSizes id) : Connection Req Resp)) [] where
  sentRequests _ := rfl
  sentResponses _ := rfl
  component _ last := by cases last
  waiting _ := rfl

variable {respond asked answered} (answers : ∀ s request,
  ((respond s request).2.map answered = asked request))

include answers

theorem BetweenCycles.next {s : σ × Connections n Req Resp}
    {log : List (CycleRecord σ n Req Resp)} (between : BetweenCycles s log)
    (c : ClientCycle n Req) :
    BetweenCycles (recordedCycle (clockOnce respond) s c).1
      (log ++ (recordedCycle (clockOnce respond) s c).2) := by
  obtain ⟨early, _, _, _, after⟩ := (clockOnce respond).cycle_eq (clockOnce_framed respond answers) s c
  refine ⟨fun id => (after id).2.1, fun id => (after id).2.2.1, ?_, fun id => ?_⟩
  · intro r last
    rw [recordedCycle, List.getLast?_concat, Option.mem_some_iff] at last
    rw [← last]
    rfl
  · have waiting := (after id).2.2.2
    rw [between.sentRequests, List.nil_append] at waiting
    rw [recordedCycle, List.getLast?_concat]
    exact waiting

/-- A cycle handles the first request of each connection. -/
theorem cycle_handles_first {s : σ × Connections n Req Resp}
    (unsent : ∀ id, (s.2 id).sentResponses = []) (c : ClientCycle n Req) :
    ((clockOnce respond).cycle s c).1.1 =
        afterRequests respond s.1 (firstRequests s.2 (List.finRange n)) ∧
      ∀ id, ((clockOnce respond).cycle s c).2.processed id = (s.2 id).readableRequests.take 1 ∧
        (((clockOnce respond).cycle s c).2.answered id).map answered =
          ((s.2 id).readableRequests.take 1).filterMap asked := by
  obtain ⟨early, views, component, events, _⟩ :=
    (clockOnce respond).cycle_eq (clockOnce_framed respond answers) s c
  have served := clockOnce_eq respond answers (s.1, early)
  constructor
  · rw [component, served.component]
    exact congrArg _ (List.flatMap_congr fun id _ => by rw [(views id).2.1])
  · intro id
    rw [(events id).1, (events id).2, ← (views id).2.1]
    refine ⟨served.processed id (List.mem_finRange id), ?_⟩
    exact served.answered id (List.mem_finRange id) ((views id).2.2.trans (unsent id))

theorem handled_of_oneWaiting {s : σ × Connections n Req Resp}
    {log : List (CycleRecord σ n Req Resp)} {r : CycleRecord σ n Req Resp}
    (between : BetweenCycles s log) (last : log.getLast? = some r) (one : OneWaiting s)
    (c : ClientCycle n Req) :
    Handled respond asked answered r
      ⟨((clockOnce respond).cycle s c).1.1, ((clockOnce respond).cycle s c).2⟩ := by
  have waiting : ∀ id, (s.2 id).readableRequests.take 1 = r.log.accepted id := by
    intro id
    rw [List.take_of_length_le (one id), between.waiting, last]
    rfl
  obtain ⟨component, first⟩ := cycle_handles_first answers between.sentResponses c
  refine ⟨fun id => ?_, ?_, fun id => ?_⟩
  · rw [← waiting id]
    exact (first id).1
  · rw [← between.component r last]
    refine component.trans (congrArg _ ?_)
    exact List.flatMap_congr fun id _ => waiting id
  · rw [← waiting id]
    exact (first id).2

theorem oneWaiting_of_drained {s : σ × Connections n Req Resp}
    {log : List (CycleRecord σ n Req Resp)} {r : CycleRecord σ n Req Resp}
    (between : BetweenCycles s log) (last : log.getLast? = some r) (c : ClientCycle n Req)
    (drained : Drained r
      ⟨((clockOnce respond).cycle s c).1.1, ((clockOnce respond).cycle s c).2⟩) :
    OneWaiting s := by
  intro id
  have whole := drained id
  have first := ((cycle_handles_first answers between.sentResponses c).2 id).1
  have waiting := between.waiting id
  rw [last] at waiting
  have all : (s.2 id).readableRequests = (s.2 id).readableRequests.take 1 :=
    waiting.trans (whole.symm.trans first)
  rw [all, List.length_take]
  exact Nat.min_le_left _ _

/-- Whatever else is asked of the handling, it is a matter of how many requests wait. -/
theorem handled_iff_meets {Good : CycleRecord σ n Req Resp → CycleRecord σ n Req Resp → Prop}
    (good : ∀ r r', Handled respond asked answered r r' → Good r r')
    (drained : ∀ r r', Good r r' → Drained r r') {s : σ × Connections n Req Resp}
    (start : BetweenCycles s []) (cycles : List (ClientCycle n Req)) :
    (Machine.run (recordedCycle (clockOnce respond)) s cycles).2.IsChain Good ↔
      Machine.Meets (recordedCycle (clockOnce respond)) (fun s _ => OneWaiting s) s cycles := by
  refine Machine.log_iff_meets (recordedCycle (clockOnce respond)) (fun s _ => OneWaiting s)
    BetweenCycles (List.IsChain Good) start List.IsChain.nil
    (fun log log' whole => List.IsChain.left_of_append whole)
    (fun s log c between => between.next answers c) (fun s log c between before => ?_) cycles
  rcases last : log.getLast? with _ | r
  · have idle : OneWaiting s := by
      intro id
      rw [between.waiting, last]
      exact Nat.zero_le 1
    rw [List.getLast?_eq_none_iff.mp last]
    exact iff_of_true (List.isChain_singleton _) idle
  · rw [recordedCycle, List.isChain_append]
    constructor
    · rintro ⟨_, _, joined⟩
      exact oneWaiting_of_drained answers between last c (drained _ _ (joined r last _ rfl))
    · intro one
      refine ⟨before, List.isChain_singleton _, ?_⟩
      intro r' last' next first
      rw [last, Option.mem_some_iff] at last'
      rw [List.head?_cons, Option.mem_some_iff] at first
      rw [← last', ← first]
      exact good _ _ (handled_of_oneWaiting answers between last one c)

end Recorded

variable {n : Nat}

/-- Counted, and answered with the request itself. -/
structure SimpleMemoryDrained (r r' : CycleRecord SimpleMemory n MemoryPacket MemoryPacket) :
    Prop where
  processed : Drained r r'
  counted : r'.component.numberOfRequests = r.component.numberOfRequests + r.requests.length
  answered : ∀ id, r'.log.answered id = r.log.accepted id

/-- Counted by type, and answered when it is a query. -/
structure RasDrained (r r' : CycleRecord Ras n PredictorPacket PredictorPacket) : Prop where
  processed : Drained r r'
  queries : r'.component.numQueries =
    r.component.numQueries + r.requests.countP (·.type = .requestQuery)
  updates : r'.component.numUpdates =
    r.component.numUpdates + r.requests.countP (·.type = .requestTargetUpdate)
  answered : ∀ id, (r'.log.answered id).map PredictorPacket.instruction =
    ((r.log.accepted id).filter (·.type = .requestQuery)).map PredictorPacket.instruction

/-- For every number of connections and size of their buffers, and whatever the clients
do: a data memory and a return address stack handle in each cycle what was accepted in
the cycle before if and only if no clock ever finds two requests on one connection. -/
theorem immediate_components_drain (bufferSizes : Fin n → Nat) :
    (∀ (m : SimpleMemory) (cycles : List (ClientCycle n MemoryPacket)),
      (Machine.run (recordedCycle SimpleMemory.clock)
          (m, fun id => .connect (bufferSizes id)) cycles).2.IsChain SimpleMemoryDrained ↔
        Machine.Meets (recordedCycle SimpleMemory.clock) (fun s _ => OneWaiting s)
          (m, fun id => .connect (bufferSizes id)) cycles) ∧
    ∀ (ras : Ras) (cycles : List (ClientCycle n PredictorPacket)),
      (Machine.run (recordedCycle Ras.clock)
          (ras, fun id => .connect (bufferSizes id)) cycles).2.IsChain RasDrained ↔
        Machine.Meets (recordedCycle Ras.clock) (fun s _ => OneWaiting s)
          (ras, fun id => .connect (bufferSizes id)) cycles := by
  constructor
  · intro m cycles
    refine handled_iff_meets SimpleMemory.respond_answers (fun r r' handled => ?_)
      (fun r r' good => good.processed) (.connect m bufferSizes) cycles
    refine ⟨handled.drained, ?_, fun id => ?_⟩
    · rw [handled.component, SimpleMemory.afterRequests_eq]
    · simpa using handled.answers id
  · intro ras cycles
    refine handled_iff_meets Ras.respond_answers (fun r r' handled => ?_)
      (fun r r' good => good.processed) (.connect ras bufferSizes) cycles
    obtain ⟨queries, updates⟩ := Ras.afterRequests_eq r.component r.requests
    refine ⟨handled.drained, ?_, ?_, fun id => ?_⟩
    · rw [handled.component, queries]
    · rw [handled.component, updates]
    · rw [handled.answers id, Ras.filterMap_asked]

/-- An instruction that reads and writes. -/
def readingAndWriting : InstructionPacket where
  dynamicInfo := { numReadings := 1, numWritings := 1 }

/-- A core with both memories, to which the engine has sent it. -/
def readingAndWritingPorts : SimpleCorePorts :=
  let ports := (SimpleCore.configure true true).2
  { ports with fetching := ((ports.fetching.sendResponse readingAndWriting).getD
      ports.fetching).swapBuffers }

/-- The core sends its data memory two requests in the cycle it fetches it in, and the first is
answered. -/
theorem read_and_write_not_drained : ∃ toMemory,
    (SimpleCore.clock {} readingAndWritingPorts).2.dataMemory = some toMemory ∧
      toMemory.sentRequests.length = 2 ∧
      ¬ (Machine.run (recordedCycle SimpleMemory.clock)
        ({}, fun _ : Fin 1 => .connect 0)
        [⟨toMemory.sentRequests.map (.sendRequest 0), []⟩,
          ⟨[], []⟩]).2.IsChain SimpleMemoryDrained := by
  obtain ⟨toMemory, sends, requests⟩ := @SimpleCore.clock_dataMemory {} readingAndWritingPorts _ _
    rfl rfl rfl readingAndWriting [] rfl
  refine ⟨toMemory, sends, ?_, fun chain => ?_⟩
  · rw [requests]
    rfl
  · rw [requests] at chain
    have first := (List.isChain_cons_cons.mp chain).1.processed 0
    exact absurd first (by decide)

end Sinuca3.Guarantees
