import Sinuca3.Lib.Mailbox
import Sinuca3.Source.Engine.ConnectionExtent

/-!
# A connection is a pair of one-cycle mailboxes

Requests and responses of one connection, under any sequence of sends, reads
and swaps, are two independent mailboxes of the connection's buffer size: the
four rings, their cursors and their growth refine the two queue pairs of
`Lib.Mailbox`, whose log theorem then gives the delivery law of the engine.

The rings are as long as the connection says where their octets are counted by an
`int`; what the sends write is then inside them. From 2147483648 octets on nothing is
allocated, and the first send writes where nothing is.
-/
namespace Sinuca3.Guarantees
open Sinuca3.Source Lib

variable {Req Resp : Type}

/-- What may be done to a connection during a simulation, in any order. -/
inductive ConnectionOp (Req Resp : Type) where
  | sendRequest (message : Req)
  | getRequest
  | sendResponse (message : Resp)
  | getResponse
  | posClock

/-- What a caller sees: whether a send returned 0, and what a read copied out. -/
inductive ConnectionEvent (Req Resp : Type) where
  | sendRequest (message : Req) (accepted : Bool)
  | getRequest (answer : Option Req)
  | sendResponse (message : Resp) (accepted : Bool)
  | getResponse (answer : Option Resp)
  | posClock

def connectionStep (c : Connection Req Resp) :
    ConnectionOp Req Resp → Connection Req Resp × List (ConnectionEvent Req Resp)
  | .sendRequest m =>
    match c.sendRequest m with
    | none => (c, [.sendRequest m false])
    | some c' => (c', [.sendRequest m true])
  | .getRequest =>
    match c.getRequest with
    | none => (c, [.getRequest none])
    | some (m, c') => (c', [.getRequest (some m)])
  | .sendResponse m =>
    match c.sendResponse m with
    | none => (c, [.sendResponse m false])
    | some c' => (c', [.sendResponse m true])
  | .getResponse =>
    match c.getResponse with
    | none => (c, [.getResponse none])
    | some (m, c') => (c', [.getResponse (some m)])
  | .posClock => (c.swapBuffers, [.posClock])

/-- The log of a fresh connection of buffer size `b`. -/
def connectionLog [Inhabited Req] [Inhabited Resp] (b : Nat)
    (ops : List (ConnectionOp Req Resp)) : List (ConnectionEvent Req Resp) :=
  (Machine.run connectionStep (Connection.createBuffers b) ops).2

/-! The request direction and the response direction of operations and events. -/

def requestOp : ConnectionOp Req Resp → Option (Mailbox.Op Req)
  | .sendRequest m => some (.put m)
  | .getRequest => some .take
  | .posClock => some .flip
  | _ => none

def responseOp : ConnectionOp Req Resp → Option (Mailbox.Op Resp)
  | .sendResponse m => some (.put m)
  | .getResponse => some .take
  | .posClock => some .flip
  | _ => none

def requestEvent : ConnectionEvent Req Resp → Option (Mailbox.Event Req)
  | .sendRequest m ok => some (.put m ok)
  | .getRequest answer => some (.took answer)
  | .posClock => some .flip
  | _ => none

def responseEvent : ConnectionEvent Req Resp → Option (Mailbox.Event Resp)
  | .sendResponse m ok => some (.put m ok)
  | .getResponse answer => some (.took answer)
  | .posClock => some .flip
  | _ => none

def requestBox (c : Connection Req Resp) : Mailbox.Box Req :=
  ⟨c.bufferSize, c.sentRequests, c.readableRequests⟩

def responseBox (c : Connection Req Resp) : Mailbox.Box Resp :=
  ⟨c.bufferSize, c.sentResponses, c.readableResponses⟩

/-- Views that agree on one direction give the same mailbox. -/
theorem requestBox_of_views {c c' : Connection Req Resp} {sr rr : List Req} {sp rp : List Resp}
    (views : Connection.Views c c' sr rr sp rp) : requestBox c' = ⟨c.bufferSize, sr, rr⟩ := by
  rw [requestBox, views.bufferSize, views.sentRequests, views.readableRequests]

theorem responseBox_of_views {c c' : Connection Req Resp} {sr rr : List Req} {sp rp : List Resp}
    (views : Connection.Views c c' sr rr sp rp) : responseBox c' = ⟨c.bufferSize, sp, rp⟩ := by
  rw [responseBox, views.bufferSize, views.sentResponses, views.readableResponses]

/-- Every operation of the request direction is a mailbox step. -/
theorem requestBox_step (c : Connection Req Resp) (op : ConnectionOp Req Resp)
    (o : Mailbox.Op Req) (seen : requestOp op = some o) :
    Mailbox.step (requestBox c) o =
      (requestBox (connectionStep c op).1, (connectionStep c op).2.filterMap requestEvent) := by
  cases op with
  | sendRequest m =>
    cases seen
    rcases c.sendRequest_eq m with ⟨refused, full⟩ | ⟨c', stored, views, room⟩
    · simp [Mailbox.step, Mailbox.Box.Full, requestBox, connectionStep, refused, full,
        requestEvent]
    · simp only [connectionStep, stored, requestBox_of_views views]
      simp [Mailbox.step, Mailbox.Box.Full, requestBox, room, requestEvent]
  | getRequest =>
    cases seen
    rcases c.getRequest_eq with ⟨none, empty⟩ | ⟨m, c', rest, taken, queue, views⟩
    · simp [Mailbox.step, requestBox, connectionStep, none, empty, requestEvent]
    · simp only [connectionStep, taken, requestBox_of_views views]
      simp [Mailbox.step, requestBox, queue, requestEvent]
  | posClock =>
    cases seen
    simp [Mailbox.step, requestBox, connectionStep, requestEvent]
  | sendResponse m => cases seen
  | getResponse => cases seen

/-- The response direction leaves the request mailbox alone. -/
theorem requestBox_ignores (c : Connection Req Resp) (op : ConnectionOp Req Resp)
    (ignored : requestOp op = none) :
    requestBox (connectionStep c op).1 = requestBox c ∧
      (connectionStep c op).2.filterMap requestEvent = [] := by
  cases op with
  | sendResponse m =>
    rcases c.sendResponse_eq m with ⟨refused, _⟩ | ⟨c', stored, views, _⟩
    · simp [connectionStep, refused, requestEvent]
    · simp only [connectionStep, stored, requestBox_of_views views]
      exact ⟨rfl, rfl⟩
  | getResponse =>
    rcases c.getResponse_eq with ⟨none, _⟩ | ⟨m, c', rest, taken, _, views⟩
    · simp [connectionStep, none, requestEvent]
    · simp only [connectionStep, taken, requestBox_of_views views]
      exact ⟨rfl, rfl⟩
  | sendRequest m => cases ignored
  | getRequest => cases ignored
  | posClock => cases ignored

theorem responseBox_step (c : Connection Req Resp) (op : ConnectionOp Req Resp)
    (o : Mailbox.Op Resp) (seen : responseOp op = some o) :
    Mailbox.step (responseBox c) o =
      (responseBox (connectionStep c op).1, (connectionStep c op).2.filterMap responseEvent) := by
  cases op with
  | sendResponse m =>
    cases seen
    rcases c.sendResponse_eq m with ⟨refused, full⟩ | ⟨c', stored, views, room⟩
    · simp [Mailbox.step, Mailbox.Box.Full, responseBox, connectionStep, refused, full,
        responseEvent]
    · simp only [connectionStep, stored, responseBox_of_views views]
      simp [Mailbox.step, Mailbox.Box.Full, responseBox, room, responseEvent]
  | getResponse =>
    cases seen
    rcases c.getResponse_eq with ⟨none, empty⟩ | ⟨m, c', rest, taken, queue, views⟩
    · simp [Mailbox.step, responseBox, connectionStep, none, empty, responseEvent]
    · simp only [connectionStep, taken, responseBox_of_views views]
      simp [Mailbox.step, responseBox, queue, responseEvent]
  | posClock =>
    cases seen
    simp [Mailbox.step, responseBox, connectionStep, responseEvent]
  | sendRequest m => cases seen
  | getRequest => cases seen

theorem responseBox_ignores (c : Connection Req Resp) (op : ConnectionOp Req Resp)
    (ignored : responseOp op = none) :
    responseBox (connectionStep c op).1 = responseBox c ∧
      (connectionStep c op).2.filterMap responseEvent = [] := by
  cases op with
  | sendRequest m =>
    rcases c.sendRequest_eq m with ⟨refused, _⟩ | ⟨c', stored, views, _⟩
    · simp [connectionStep, refused, responseEvent]
    · simp only [connectionStep, stored, responseBox_of_views views]
      exact ⟨rfl, rfl⟩
  | getRequest =>
    rcases c.getRequest_eq with ⟨none, _⟩ | ⟨m, c', rest, taken, _, views⟩
    · simp [connectionStep, none, responseEvent]
    · simp only [connectionStep, taken, responseBox_of_views views]
      exact ⟨rfl, rfl⟩
  | sendResponse m => cases ignored
  | getResponse => cases ignored
  | posClock => cases ignored

section Refinement

variable [Inhabited Req] [Inhabited Resp] (b : Nat) (ops : List (ConnectionOp Req Resp))

/-- The request log is that of a mailbox that sees the request operations only. -/
theorem requestLog_refines :
    (connectionLog b ops).filterMap requestEvent =
      (Machine.run Mailbox.step (Mailbox.empty b) (ops.filterMap requestOp)).2 := by
  have whole := Machine.run_view connectionStep Mailbox.step requestBox requestOp requestEvent
    requestBox_step requestBox_ignores (Connection.createBuffers b) ops
  exact (congrArg Prod.snd whole).symm

theorem responseLog_refines :
    (connectionLog b ops).filterMap responseEvent =
      (Machine.run Mailbox.step (Mailbox.empty b) (ops.filterMap responseOp)).2 := by
  have whole := Machine.run_view connectionStep Mailbox.step responseBox responseOp responseEvent
    responseBox_step responseBox_ignores (Connection.createBuffers b) ops
  exact (congrArg Prod.snd whole).symm

end Refinement

/-- An operation on the extents of a connection; a send reports whether its copies stay
inside. -/
def connectionExtentStep (c : ConnectionExtent) :
    ConnectionOp Req Resp → ConnectionExtent × List Bool
  | .sendRequest _ =>
    let sent := c.insertIntoRequestBuffer sourceId
    (sent.2, [sent.1])
  | .getRequest => (c.removeFromARequestBuffer destId, [])
  | .sendResponse _ =>
    let sent := c.insertIntoResponseBuffer destId
    (sent.2, [sent.1])
  | .getResponse => (c.removeFromAResponseBuffer sourceId, [])
  | .posClock => (c.swapBuffers, [])

/-- What a send makes a buffer grow to, if it does, still fits. -/
def SendFits (c : ConnectionExtent) : ConnectionOp Req Resp → Prop
  | .sendRequest _ => (c.requestBuffers sourceId).GrowthFits .enqueue
  | .sendResponse _ => (c.responseBuffers destId).GrowthFits .enqueue
  | _ => True

instance (c : ConnectionExtent) (op : ConnectionOp Req Resp) : Decidable (SendFits c op) :=
  match op with
  | .sendRequest _ => inferInstanceAs (Decidable ((c.requestBuffers sourceId).GrowthFits .enqueue))
  | .sendResponse _ => inferInstanceAs (Decidable ((c.responseBuffers destId).GrowthFits .enqueue))
  | .getRequest | .getResponse | .posClock => .isTrue trivial

/-- The reports of the sends on a fresh connection. -/
def sentInside (b messageSize : Nat) (ops : List (ConnectionOp Req Resp)) : List Bool :=
  (Machine.run connectionExtentStep (.createBuffers b messageSize) ops).2

/-- The extents move as the connection does, and what is sent is written inside. -/
theorem connectionExtentStep_of_fits {c : Connection Req Resp} {messageSize : Nat}
    (sized : 0 < messageSize) (inside : (c.extents messageSize).Inside)
    (op : ConnectionOp Req Resp) (room : SendFits (c.extents messageSize) op) :
    (∀ report ∈ (connectionExtentStep (c.extents messageSize) op).2, report = true) ∧
      (connectionExtentStep (c.extents messageSize) op).1 =
        (connectionStep c op).1.extents messageSize ∧
      (connectionExtentStep (c.extents messageSize) op).1.Inside := by
  cases op with
  | sendRequest m =>
    obtain ⟨copied, after⟩ := inside.insertIntoRequestBuffer room
    refine ⟨fun _ member => (List.mem_singleton.mp member).trans copied, ?_, after⟩
    refine (c.extents_insertIntoRequestBuffer inside sized sourceId m room).trans ?_
    unfold connectionStep Connection.sendRequest
    dsimp only
    split <;> rename_i sent <;> rw [sent] <;> rfl
  | getRequest =>
    refine ⟨fun _ member => absurd member List.not_mem_nil, ?_,
      inside.removeFromARequestBuffer destId⟩
    refine (c.extents_removeFromARequestBuffer inside sized destId).trans ?_
    unfold connectionStep Connection.getRequest
    dsimp only
    split <;> rename_i taken <;> rw [taken] <;> rfl
  | sendResponse m =>
    obtain ⟨copied, after⟩ := inside.insertIntoResponseBuffer room
    refine ⟨fun _ member => (List.mem_singleton.mp member).trans copied, ?_, after⟩
    refine (c.extents_insertIntoResponseBuffer inside sized destId m room).trans ?_
    unfold connectionStep Connection.sendResponse
    dsimp only
    split <;> rename_i sent <;> rw [sent] <;> rfl
  | getResponse =>
    refine ⟨fun _ member => absurd member List.not_mem_nil, ?_,
      inside.removeFromAResponseBuffer sourceId⟩
    refine (c.extents_removeFromAResponseBuffer inside sized sourceId).trans ?_
    unfold connectionStep Connection.getResponse
    dsimp only
    split <;> rename_i taken <;> rw [taken] <;> rfl
  | posClock =>
    exact ⟨fun _ member => absurd member List.not_mem_nil, c.extents_swapBuffers,
      inside.swapBuffers⟩

theorem connectionExtent_run {messageSize : Nat} (sized : 0 < messageSize)
    (ops : List (ConnectionOp Req Resp)) (c : Connection Req Resp)
    (inside : (c.extents messageSize).Inside)
    (room : Machine.Meets connectionExtentStep SendFits (c.extents messageSize) ops) :
    (∀ report ∈ (Machine.run connectionExtentStep (c.extents messageSize) ops).2,
        report = true) ∧
      (Machine.run connectionExtentStep (c.extents messageSize) ops).1 =
        (Machine.run connectionStep c ops).1.extents messageSize := by
  induction ops generalizing c with
  | nil => exact ⟨fun _ member => absurd member List.not_mem_nil, rfl⟩
  | cons op ops ih =>
    obtain ⟨here, later⟩ := room
    obtain ⟨written, moves, after⟩ := connectionExtentStep_of_fits sized inside op here
    rw [moves] at after later
    obtain ⟨rest, final⟩ := ih _ after later
    rw [Machine.run_cons, Machine.run_cons, moves]
    exact ⟨fun report member => (List.mem_append.mp member).elim (written report) (rest report),
      final⟩

/-- For every buffer size and message size of which an `int` counts the octets, and every
sequence of operations in which no buffer grows beyond that: what is sent is written inside
the buffers, which are those of the connection; each direction of it is a one-cycle mailbox;
and its log depends on the operations of its own direction only. -/
theorem connection_oneCycle [Inhabited Req] [Inhabited Resp] {b messageSize : Nat}
    (sized : 0 < messageSize) (fits : CircularBufferExtent.Fits b messageSize)
    (ops : List (ConnectionOp Req Resp))
    (room : Machine.Meets connectionExtentStep SendFits (.createBuffers b messageSize) ops) :
    (∀ report ∈ sentInside b messageSize ops, report = true) ∧
    (Machine.run connectionExtentStep (.createBuffers b messageSize) ops).1 =
      (Machine.run connectionStep (Connection.createBuffers b) ops).1.extents messageSize ∧
    Mailbox.OneCycle b ((connectionLog b ops).filterMap requestEvent) ∧
    Mailbox.OneCycle b ((connectionLog b ops).filterMap responseEvent) ∧
    (connectionLog b ops).filterMap requestEvent =
      (Machine.run Mailbox.step (Mailbox.empty b) (ops.filterMap requestOp)).2 ∧
    (connectionLog b ops).filterMap responseEvent =
      (Machine.run Mailbox.step (Mailbox.empty b) (ops.filterMap responseOp)).2 := by
  have start : ConnectionExtent.createBuffers b messageSize =
      (Connection.createBuffers b : Connection Req Resp).extents messageSize :=
    Connection.extents_createBuffers sized fits
  have inside := ConnectionExtent.Inside.createBuffers (by omega) fits
  unfold sentInside
  rw [start] at inside room ⊢
  obtain ⟨written, extents⟩ := connectionExtent_run sized ops _ inside room
  refine ⟨written, extents, ?_, ?_, requestLog_refines b ops, responseLog_refines b ops⟩
  · rw [requestLog_refines]
    exact Mailbox.run_oneCycle b _
  · rw [responseLog_refines]
    exact Mailbox.run_oneCycle b _

/-- Nine requests of eight octets on a connection that starts with room for eight, a swap,
two reads and a response. -/
def nineRequests : List (ConnectionOp Nat Nat) :=
  (List.range 9).map .sendRequest ++
    [.posClock, .getRequest, .getRequest, .sendResponse 7, .posClock, .getRequest, .getResponse]

theorem nineRequests_oneCycle :
    (∀ report ∈ sentInside 0 8 nineRequests, report = true) ∧
      Mailbox.OneCycle 0 ((connectionLog 0 nineRequests).filterMap requestEvent) := by
  obtain ⟨written, _, requests, _⟩ :=
    @connection_oneCycle Nat Nat _ _ 0 8 (by decide) (by decide) nineRequests (by decide)
  exact ⟨written, requests⟩

/-- Of 268435456 messages of eight octets there are 2147483648 octets, for which nothing is
allocated: the first request, which is to be accepted, is written outside. -/
theorem wide_connection_writes_outside :
    sentInside 268435456 8 [(.sendRequest 5 : ConnectionOp Nat Nat)] = [false] ∧
      (connectionLog 268435456 [(.sendRequest 5 : ConnectionOp Nat Nat), .posClock,
        .getRequest]).filterMap requestEvent = [.put 5 true, .flip, .took (some 5)] := by
  constructor
  · decide
  · rfl

end Sinuca3.Guarantees
