import Sinuca3.Guarantees.ConnectionMailbox

/-!
# Availability of a connection

`IsComponentAvailable` asks whether the ring of requests is full; `SendRequest` may make a
full ring grow. The two answers are compared in every state a connection reaches.
-/
namespace Sinuca3.Guarantees
open Sinuca3.Source Lib

variable {Req Resp : Type}

/-- `IsComponentAvailable` says true exactly when `SendRequest` would return 0. -/
def AvailabilityAgrees (c : Connection Req Resp) : Prop :=
  ∀ message, c.isConnectionAvailable = true ↔ (c.sendRequest message).isSome

/-- A ring with a limit is never full and ready to grow. -/
theorem agrees_of_limit {c : Connection Req Resp} (limited : c.bufferSize ≠ 0) :
    AvailabilityAgrees c := by
  intro message
  constructor
  · intro available
    obtain ⟨c', sent, _⟩ := c.sendRequest_of_available message available
    rw [sent]
    rfl
  · intro sent
    rcases c.sendRequest_eq message with ⟨refused, _⟩ | ⟨c', _, _, room⟩
    · rw [refused] at sent
      cases sent
    · have slots := (c.requestBuffers sourceId).limit limited
      rw [Connection.sentRequests, CircularBuffer.contents_length] at room
      have free : ¬ (c.requestBuffers sourceId).occupation =
          (c.requestBuffers sourceId).bufferSize :=
        fun full => room ⟨Nat.pos_of_ne_zero limited, full.trans slots⟩
      simp [Connection.isConnectionAvailable, Connection.isRequestBufferAvailable,
        CircularBuffer.isFull, free]

/-- Without a limit every request is taken, whatever `IsFull` says. -/
theorem agrees_unlimited_iff [Inhabited Req] {c : Connection Req Resp}
    (unlimited : c.bufferSize = 0) :
    AvailabilityAgrees c ↔
      c.sentRequests.length ≠ (c.requestBuffers sourceId).bufferSize := by
  have taken : ∀ message, (c.sendRequest message).isSome := by
    intro message
    rcases c.sendRequest_eq message with ⟨_, limited, _⟩ | ⟨c', sent, _⟩
    · omega
    · rw [sent]
      rfl
  rw [Connection.sentRequests, CircularBuffer.contents_length]
  constructor
  · intro agrees full
    have available := (agrees default).mpr (taken default)
    simp [Connection.isConnectionAvailable, Connection.isRequestBufferAvailable,
      CircularBuffer.isFull, full] at available
  · intro free message
    refine iff_of_true ?_ (taken message)
    simp [Connection.isConnectionAvailable, Connection.isRequestBufferAvailable,
      CircularBuffer.isFull, free]

theorem defaultBufferSize_pos : 0 < defaultBufferSize := by decide

/-- Requests sent since the last clock. -/
def sendsAfter (sends : Nat) : ConnectionOp Req Resp → Nat
  | .sendRequest _ => sends + 1
  | .posClock => 0
  | _ => sends

def sendsInCycle (ops : List (ConnectionOp Req Resp)) : Nat := ops.foldl sendsAfter 0

theorem sendsInCycle_concat (ops : List (ConnectionOp Req Resp)) (op : ConnectionOp Req Resp) :
    sendsInCycle (ops ++ [op]) = sendsAfter (sendsInCycle ops) op := by
  simp [sendsInCycle]

/-- Request rings of the first size, with so many requests waiting. -/
structure FirstRings (c : Connection Req Resp) (sends : Nat) : Prop where
  unlimited : c.bufferSize = 0
  slots : ∀ id, (c.requestBuffers id).bufferSize = defaultBufferSize
  waiting : c.sentRequests.length = sends

theorem dequeue_slots {limit : Nat} {b b' : CircularBuffer Req limit} {x : Req}
    (taken : b.dequeue = some (x, b')) : b'.bufferSize = b.bufferSize := by
  unfold CircularBuffer.dequeue at taken
  split at taken
  · cases taken
  · cases taken
    rfl

section Step

variable {c : Connection Req Resp} {sends : Nat}

theorem FirstRings.sendRequest (rings : FirstRings c sends) (few : sends < defaultBufferSize)
    (message : Req) : FirstRings (connectionStep c (.sendRequest message)).1 (sends + 1) := by
  obtain ⟨unlimited, slots, waiting⟩ := rings
  have free : ¬ (c.requestBuffers sourceId).occupation =
      (c.requestBuffers sourceId).bufferSize := by
    rw [slots, ← CircularBuffer.contents_length]
    exact fun full => absurd (waiting.symm.trans full) (by omega)
  rcases c.sendRequest_eq message with ⟨_, limited, _⟩ | ⟨c', sent, views, _⟩
  · omega
  have step : (connectionStep c (.sendRequest message)).1 = c' := by
    simp only [connectionStep, sent]
  rw [step]
  refine ⟨views.bufferSize.trans unlimited, fun id => ?_, ?_⟩
  · simp only [Connection.sendRequest, Connection.insertIntoRequestBuffer,
      CircularBuffer.enqueue, dif_neg free, Option.map_some, Option.some.injEq] at sent
    subst sent
    by_cases source : id = sourceId
    · subst source
      rw [← slots sourceId]
      simp [CircularBuffer.store]
    · rw [← slots id]
      simp [source]
  · rw [views.sentRequests, List.length_append, waiting]
    rfl

theorem FirstRings.getRequest (rings : FirstRings c sends) :
    FirstRings (connectionStep c .getRequest).1 sends := by
  rcases c.getRequest_eq with ⟨none, _⟩ | ⟨m, c', rest, taken, _, views⟩
  · simpa only [connectionStep, none] using rings
  have step : (connectionStep c .getRequest).1 = c' := by
    simp only [connectionStep, taken]
  rw [step]
  refine ⟨views.bufferSize.trans rings.unlimited, fun id => ?_, ?_⟩
  · unfold Connection.getRequest Connection.removeFromARequestBuffer at taken
    rw [Option.map_eq_some_iff] at taken
    obtain ⟨⟨x, b⟩, dequeued, same⟩ := taken
    cases same
    by_cases destination : id = destId
    · subst destination
      rw [← rings.slots destId, ← dequeue_slots dequeued]
      simp
    · rw [← rings.slots id]
      simp [destination]
  · rw [views.sentRequests, rings.waiting]

/-- The responses are in rings of their own. -/
theorem FirstRings.of_requests {c' : Connection Req Resp} (rings : FirstRings c sends)
    (responses : ∃ r, c' = { c with responseBuffers := r }) : FirstRings c' sends := by
  obtain ⟨r, rfl⟩ := responses
  exact ⟨rings.unlimited, rings.slots, rings.waiting⟩

theorem FirstRings.posClock (rings : FirstRings c sends) :
    FirstRings (connectionStep c .posClock).1 0 := by
  refine ⟨rings.unlimited, fun id => ?_, ?_⟩
  · by_cases source : id = sourceId
    · subst source
      rw [← rings.slots destId]
      simp [connectionStep, Connection.swapBuffers, CircularBuffer.flush]
    · rw [← rings.slots sourceId]
      simp [connectionStep, Connection.swapBuffers, source]
  · simp [connectionStep]

/-- A ring that is not full when a request comes does not grow. -/
theorem FirstRings.step (rings : FirstRings c sends) (few : sends < defaultBufferSize)
    (op : ConnectionOp Req Resp) : FirstRings (connectionStep c op).1 (sendsAfter sends op) := by
  cases op with
  | sendRequest message => exact rings.sendRequest few message
  | getRequest => exact rings.getRequest
  | posClock => exact rings.posClock
  | sendResponse message =>
    apply rings.of_requests
    simp only [connectionStep, Connection.sendResponse, Connection.insertIntoResponseBuffer]
    cases (c.responseBuffers destId).enqueue message with
    | none => exact ⟨c.responseBuffers, rfl⟩
    | some b => exact ⟨_, rfl⟩
  | getResponse =>
    apply rings.of_requests
    simp only [connectionStep, Connection.getResponse, Connection.removeFromAResponseBuffer]
    cases (c.responseBuffers sourceId).dequeue with
    | none => exact ⟨c.responseBuffers, rfl⟩
    | some taken => exact ⟨_, rfl⟩

end Step

theorem bufferSize_step (c : Connection Req Resp) (op : ConnectionOp Req Resp) :
    (connectionStep c op).1.bufferSize = c.bufferSize := by
  cases op with
  | sendRequest m =>
    rcases c.sendRequest_eq m with ⟨refused, _⟩ | ⟨c', sent, views, _⟩
    · simp only [connectionStep, refused]
    · simpa only [connectionStep, sent] using views.bufferSize
  | getRequest =>
    rcases c.getRequest_eq with ⟨none, _⟩ | ⟨m, c', rest, taken, _, views⟩
    · simp only [connectionStep, none]
    · simpa only [connectionStep, taken] using views.bufferSize
  | sendResponse m =>
    rcases c.sendResponse_eq m with ⟨refused, _⟩ | ⟨c', sent, views, _⟩
    · simp only [connectionStep, refused]
    · simpa only [connectionStep, sent] using views.bufferSize
  | getResponse =>
    rcases c.getResponse_eq with ⟨none, _⟩ | ⟨m, c', rest, taken, _, views⟩
    · simp only [connectionStep, none]
    · simpa only [connectionStep, taken] using views.bufferSize
  | posClock => rfl

/-- For every buffer size and every sequence of operations: availability agrees with
sending in every state reached if and only if the size is limited or no cycle sends as
many requests as the ring has slots at first. -/
theorem availability [Inhabited Req] [Inhabited Resp] (bufferSize : Nat)
    (ops : List (ConnectionOp Req Resp)) :
    (∀ js, js <+: ops → AvailabilityAgrees
        (Machine.run connectionStep (Connection.createBuffers bufferSize) js).1) ↔
      bufferSize ≠ 0 ∨ ∀ js, js <+: ops → sendsInCycle js < defaultBufferSize := by
  by_cases limited : bufferSize ≠ 0
  · refine iff_of_true (fun js _ => agrees_of_limit ?_) (.inl limited)
    have kept := Machine.run_induction connectionStep
      (s := (Connection.createBuffers bufferSize : Connection Req Resp))
      (P := fun c _ _ => c.bufferSize = bufferSize) rfl
      (fun c _ _ op same => (bufferSize_step c op).trans same) js
    rw [kept]
    exact limited
  · rw [or_iff_right limited]
    rw [not_not] at limited
    subst limited
    apply Machine.reached_iff_within connectionStep
      (fun c js => FirstRings c (sendsInCycle js)) (fun c _ => AvailabilityAgrees c)
      (fun js => sendsInCycle js < defaultBufferSize)
    · exact ⟨rfl, fun _ => rfl, rfl⟩
    · exact (agrees_unlimited_iff rfl).mpr (Nat.ne_of_lt defaultBufferSize_pos)
    · exact defaultBufferSize_pos
    · intro c js op rings few _
      rw [sendsInCycle_concat]
      exact rings.step few op
    · intro c js _ op rings few _
      have next := rings.step few op
      have most : sendsAfter (sendsInCycle js) op ≤ defaultBufferSize := by
        cases op <;> simp only [sendsAfter] <;> omega
      rw [sendsInCycle_concat, agrees_unlimited_iff next.unlimited, next.slots, next.waiting]
      exact ⟨fun other => Nat.lt_of_le_of_ne most other, Nat.ne_of_lt⟩

/-- The eighth request of a cycle fills a connection without a limit. -/
theorem full_and_growing :
    ¬ AvailabilityAgrees (Machine.run connectionStep
      (Connection.createBuffers 0 : Connection Nat Nat)
      (List.replicate 8 (.sendRequest 7))).1 := by
  intro agrees
  have available := (agrees 7).mpr (by decide)
  revert available
  decide

end Sinuca3.Guarantees
