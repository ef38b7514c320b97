import Sinuca3.Source.Utils.CircularBuffer

/-!
# Connections

`engine/linkable.cpp`. A connection owns two request and two response buffers;
the side that created it works on the buffers with index `sourceId`, the side it
leads to on those with index `destId`, and `swapBuffers` exchanges each pair.
Requests and responses get a type each, since what one direction carries is never
read as the other. The message size decides how much is allocated and is left to
`ConnectionExtent`: the connections here are those of sizes that are allocated.

The four views below are what a simulation observes of a connection: each
operation is described on them, and the ring positions stay out of later proofs.
-/
namespace Sinuca3.Source

def sourceId : Fin 2 := 0
def destId : Fin 2 := 1

structure Connection (Req Resp : Type) where
  bufferSize : Nat
  requestBuffers : Fin 2 → CircularBuffer Req bufferSize
  responseBuffers : Fin 2 → CircularBuffer Resp bufferSize

namespace Connection

variable {Req Resp : Type}

/-- For sizes of the buffers and of a message that `CircularBufferExtent.Fits`. -/
def createBuffers [Inhabited Req] [Inhabited Resp] (bufferSize : Nat) : Connection Req Resp where
  bufferSize := bufferSize
  requestBuffers := fun _ => .allocate bufferSize
  responseBuffers := fun _ => .allocate bufferSize

/-- `Connect` takes an `int`, to which a larger size is cut. For a size that comes out
negative the code has four buffers without a block, which a `Connection` cannot be; what is
proved of the sizes that a configuration may give says that they are allocated. -/
def connect [Inhabited Req] [Inhabited Resp] (bufferSize : Int) : Connection Req Resp :=
  createBuffers (BitVec.ofInt 32 bufferSize).toInt.toNat

def isRequestBufferAvailable (c : Connection Req Resp) (id : Fin 2) : Bool :=
  !(c.requestBuffers id).isFull

/-- Exchange both pairs, then flush what becomes the sender's side. -/
def swapBuffers (c : Connection Req Resp) : Connection Req Resp :=
  let requests := fun id => c.requestBuffers (if id = sourceId then destId else sourceId)
  let responses := fun id => c.responseBuffers (if id = sourceId then destId else sourceId)
  { c with
    requestBuffers := Function.update requests sourceId (requests sourceId).flush
    responseBuffers := Function.update responses destId (responses destId).flush }

def insertIntoRequestBuffer (c : Connection Req Resp) (id : Fin 2) (messageInput : Req) :
    Option (Connection Req Resp) :=
  ((c.requestBuffers id).enqueue messageInput).map fun b =>
    { c with requestBuffers := Function.update c.requestBuffers id b }

def insertIntoResponseBuffer (c : Connection Req Resp) (id : Fin 2) (messageInput : Resp) :
    Option (Connection Req Resp) :=
  ((c.responseBuffers id).enqueue messageInput).map fun b =>
    { c with responseBuffers := Function.update c.responseBuffers id b }

def removeFromARequestBuffer (c : Connection Req Resp) (id : Fin 2) :
    Option (Req × Connection Req Resp) :=
  (c.requestBuffers id).dequeue.map fun (messageOutput, b) =>
    (messageOutput, { c with requestBuffers := Function.update c.requestBuffers id b })

def removeFromAResponseBuffer (c : Connection Req Resp) (id : Fin 2) :
    Option (Resp × Connection Req Resp) :=
  (c.responseBuffers id).dequeue.map fun (messageOutput, b) =>
    (messageOutput, { c with responseBuffers := Function.update c.responseBuffers id b })

/-! The accesses a component makes to one entry of a linkable's `connections`. -/

def isConnectionAvailable (c : Connection Req Resp) : Bool := c.isRequestBufferAvailable sourceId

def sendRequest (c : Connection Req Resp) (m : Req) : Option (Connection Req Resp) :=
  c.insertIntoRequestBuffer sourceId m

def getRequest (c : Connection Req Resp) : Option (Req × Connection Req Resp) :=
  c.removeFromARequestBuffer destId

def sendResponse (c : Connection Req Resp) (m : Resp) : Option (Connection Req Resp) :=
  c.insertIntoResponseBuffer destId m

def getResponse (c : Connection Req Resp) : Option (Resp × Connection Req Resp) :=
  c.removeFromAResponseBuffer sourceId

/-- A loop that reads responses while there is one, at most the given times. -/
def getResponses (c : Connection Req Resp) : Nat → List Resp × Connection Req Resp
  | 0 => ([], c)
  | n + 1 =>
    match c.getResponse with
    | none => ([], c)
    | some (m, c) =>
      let rest := c.getResponses n
      (m :: rest.1, rest.2)

/-- A loop that reads requests while there is one, at most the given times. -/
def getRequests (c : Connection Req Resp) : Nat → List Req × Connection Req Resp
  | 0 => ([], c)
  | n + 1 =>
    match c.getRequest with
    | none => ([], c)
    | some (m, c) =>
      let rest := c.getRequests n
      (m :: rest.1, rest.2)

/-- Requests accepted since the last swap. -/
def sentRequests (c : Connection Req Resp) : List Req := (c.requestBuffers sourceId).contents

/-- Requests the destination can still read this cycle. -/
def readableRequests (c : Connection Req Resp) : List Req := (c.requestBuffers destId).contents

/-- Responses accepted since the last swap. -/
def sentResponses (c : Connection Req Resp) : List Resp := (c.responseBuffers destId).contents

/-- Responses the source can still read this cycle. -/
def readableResponses (c : Connection Req Resp) : List Resp :=
  (c.responseBuffers sourceId).contents

/-- `while (ReceiveResponse(..) == 0)`. -/
def drainResponses (c : Connection Req Resp) : List Resp × Connection Req Resp :=
  c.getResponses c.readableResponses.length

/-- `while (ReceiveRequestFromConnection(..) == 0)`. -/
def drainRequests (c : Connection Req Resp) : List Req × Connection Req Resp :=
  c.getRequests c.readableRequests.length

/-- How many of `n` requests sent one after the other the connection takes. -/
def takes (c : Connection Req Resp) (n : Nat) : Nat :=
  if c.bufferSize = 0 then n else min n (c.bufferSize - c.sentRequests.length)

/-- A size that is an `int`. -/
theorem bufferSize_connect [Inhabited Req] [Inhabited Resp] {bufferSize : Nat}
    (small : bufferSize < 2147483648) :
    (connect bufferSize : Connection Req Resp).bufferSize = bufferSize := by
  have same : (BitVec.ofInt 32 bufferSize).toInt = bufferSize := by
    rw [BitVec.toInt_ofInt]
    exact Int.bmod_eq_of_le (by omega) (by omega)
  change (BitVec.ofInt 32 bufferSize).toInt.toNat = bufferSize
  rw [same, Int.toNat_natCast]

@[simp] theorem dest_ne_source : ¬ destId = sourceId := by decide

@[simp] theorem source_ne_dest : ¬ sourceId = destId := by decide

@[simp] theorem views_connect [Inhabited Req] [Inhabited Resp] (bufferSize : Int) :
    (connect bufferSize : Connection Req Resp).sentRequests = [] ∧
      (connect bufferSize : Connection Req Resp).readableRequests = [] ∧
      (connect bufferSize : Connection Req Resp).sentResponses = [] ∧
      (connect bufferSize : Connection Req Resp).readableResponses = [] :=
  ⟨rfl, rfl, rfl, rfl⟩

section Swap

variable (c : Connection Req Resp)

@[simp] theorem sentRequests_swap : c.swapBuffers.sentRequests = [] := by
  simp [sentRequests, swapBuffers]

@[simp] theorem readableRequests_swap : c.swapBuffers.readableRequests = c.sentRequests := by
  simp [readableRequests, sentRequests, swapBuffers]

@[simp] theorem sentResponses_swap : c.swapBuffers.sentResponses = [] := by
  simp [sentResponses, swapBuffers]

@[simp] theorem readableResponses_swap : c.swapBuffers.readableResponses = c.sentResponses := by
  simp [readableResponses, sentResponses, swapBuffers]

@[simp] theorem bufferSize_swap : c.swapBuffers.bufferSize = c.bufferSize := rfl

end Swap

/-- A swap of a connection that is not in use. -/
theorem swapBuffers_connect [Inhabited Req] [Inhabited Resp] (bufferSize : Int) :
    (connect bufferSize : Connection Req Resp).swapBuffers = connect bufferSize := by
  unfold connect createBuffers
  generalize (BitVec.ofInt 32 bufferSize).toInt.toNat = size
  have requests : Function.update (fun _ : Fin 2 => (.allocate size : CircularBuffer Req size))
      sourceId (CircularBuffer.allocate size).flush = fun _ => .allocate size :=
    Function.update_eq_self sourceId _
  have responses : Function.update (fun _ : Fin 2 => (.allocate size : CircularBuffer Resp size))
      destId (CircularBuffer.allocate size).flush = fun _ => .allocate size :=
    Function.update_eq_self destId _
  exact congrArg₂ (Connection.mk size) requests responses

/-- `c'` has the limit of `c` and the views given. -/
structure Views (c c' : Connection Req Resp) (sentReq readReq : List Req)
    (sentResp readResp : List Resp) : Prop where
  bufferSize : c'.bufferSize = c.bufferSize
  sentRequests : c'.sentRequests = sentReq
  readableRequests : c'.readableRequests = readReq
  sentResponses : c'.sentResponses = sentResp
  readableResponses : c'.readableResponses = readResp

/-- A request is refused exactly when the limit is reached, and then nothing
changes; otherwise it joins the requests sent this cycle and nothing else moves. -/
theorem sendRequest_eq (c : Connection Req Resp) (m : Req) :
    (c.sendRequest m = none ∧ 0 < c.bufferSize ∧ c.sentRequests.length = c.bufferSize) ∨
    (∃ c', c.sendRequest m = some c' ∧
      Views c c' (c.sentRequests ++ [m]) c.readableRequests
        c.sentResponses c.readableResponses ∧
      ¬ (0 < c.bufferSize ∧ c.sentRequests.length = c.bufferSize)) := by
  rcases CircularBuffer.enqueue_eq (c.requestBuffers sourceId) m with
    ⟨refused, full⟩ | ⟨b, stored, queue, room⟩
  · exact Or.inl ⟨by simp [sendRequest, insertIntoRequestBuffer, refused], full⟩
  · refine Or.inr ⟨_, by rw [sendRequest, insertIntoRequestBuffer, stored]; rfl, ?_, room⟩
    exact ⟨rfl, by simpa [Connection.sentRequests] using queue,
      by simp [Connection.readableRequests], rfl, rfl⟩

/-- A connection that says it is available takes the request. -/
theorem sendRequest_of_available (c : Connection Req Resp) (m : Req)
    (available : c.isConnectionAvailable) :
    ∃ c', c.sendRequest m = some c' ∧
      Views c c' (c.sentRequests ++ [m]) c.readableRequests
        c.sentResponses c.readableResponses := by
  rcases c.sendRequest_eq m with ⟨_, bounded, full⟩ | ⟨c', sent, views, _⟩
  · have size := (c.requestBuffers sourceId).limit (Nat.ne_of_gt bounded)
    rw [sentRequests, CircularBuffer.contents_length] at full
    have occupied := full.trans size.symm
    simp [isConnectionAvailable, isRequestBufferAvailable, CircularBuffer.isFull, occupied]
      at available
  · exact ⟨c', sent, views⟩

/-- A connection with room says it is available. -/
theorem isConnectionAvailable_of_room {c : Connection Req Resp}
    (room : c.sentRequests.length < c.bufferSize) : c.isConnectionAvailable = true := by
  have size := (c.requestBuffers sourceId).limit (show c.bufferSize ≠ 0 by omega)
  have occupied := (c.requestBuffers sourceId).contents_length
  unfold sentRequests at room
  unfold isConnectionAvailable isRequestBufferAvailable CircularBuffer.isFull
  rw [Bool.not_eq_true', beq_eq_false_iff_ne]
  omega

/-- The response direction of `sendRequest_eq`. -/
theorem sendResponse_eq (c : Connection Req Resp) (m : Resp) :
    (c.sendResponse m = none ∧ 0 < c.bufferSize ∧ c.sentResponses.length = c.bufferSize) ∨
    (∃ c', c.sendResponse m = some c' ∧
      Views c c' c.sentRequests c.readableRequests
        (c.sentResponses ++ [m]) c.readableResponses ∧
      ¬ (0 < c.bufferSize ∧ c.sentResponses.length = c.bufferSize)) := by
  rcases CircularBuffer.enqueue_eq (c.responseBuffers destId) m with
    ⟨refused, full⟩ | ⟨b, stored, queue, room⟩
  · exact Or.inl ⟨by simp [sendResponse, insertIntoResponseBuffer, refused], full⟩
  · refine Or.inr ⟨_, by rw [sendResponse, insertIntoResponseBuffer, stored]; rfl, ?_, room⟩
    exact ⟨rfl, rfl, rfl, by simpa [Connection.sentResponses] using queue,
      by simp [Connection.readableResponses]⟩

/-- The destination reads the oldest readable request, and nothing else moves. -/
theorem getRequest_eq (c : Connection Req Resp) :
    (c.getRequest = none ∧ c.readableRequests = []) ∨
    (∃ m c' rest, c.getRequest = some (m, c') ∧ c.readableRequests = m :: rest ∧
      Views c c' c.sentRequests rest c.sentResponses c.readableResponses) := by
  rcases CircularBuffer.dequeue_eq (c.requestBuffers destId) with
    ⟨none, empty⟩ | ⟨m, b, taken, queue⟩
  · exact Or.inl ⟨by simp [getRequest, removeFromARequestBuffer, none], empty⟩
  · refine Or.inr ⟨m, _, b.contents,
      by rw [getRequest, removeFromARequestBuffer, taken]; rfl, queue, ?_⟩
    exact ⟨rfl, by simp [Connection.sentRequests], by simp [Connection.readableRequests],
      rfl, rfl⟩

/-- The response direction of `getRequest_eq`. -/
theorem getResponse_eq (c : Connection Req Resp) :
    (c.getResponse = none ∧ c.readableResponses = []) ∨
    (∃ m c' rest, c.getResponse = some (m, c') ∧ c.readableResponses = m :: rest ∧
      Views c c' c.sentRequests c.readableRequests c.sentResponses rest) := by
  rcases CircularBuffer.dequeue_eq (c.responseBuffers sourceId) with
    ⟨none, empty⟩ | ⟨m, b, taken, queue⟩
  · exact Or.inl ⟨by simp [getResponse, removeFromAResponseBuffer, none], empty⟩
  · refine Or.inr ⟨m, _, b.contents,
      by rw [getResponse, removeFromAResponseBuffer, taken]; rfl, queue, ?_⟩
    exact ⟨rfl, rfl, rfl, by simp [Connection.sentResponses],
      by simp [Connection.readableResponses]⟩

/-- A request buffer with a limit holds no more than that. -/
theorem requests_length_le (c : Connection Req Resp) (bounded : c.bufferSize ≠ 0) :
    c.sentRequests.length ≤ c.bufferSize ∧ c.readableRequests.length ≤ c.bufferSize := by
  have limit : ∀ id, (c.requestBuffers id).contents.length ≤ c.bufferSize := by
    intro id
    rw [CircularBuffer.contents_length]
    exact (c.requestBuffers id).occupation_le.trans ((c.requestBuffers id).limit bounded).le
  exact ⟨limit sourceId, limit destId⟩

theorem takes_eq_zero {c : Connection Req Resp} (bounded : 0 < c.bufferSize)
    (full : c.sentRequests.length = c.bufferSize) (n : Nat) : c.takes n = 0 := by
  unfold takes
  rw [if_neg (by omega), full, Nat.sub_self, Nat.min_zero]

theorem takes_succ {c c' : Connection Req Resp} {m : Req} {rr : List Req} {sp rp : List Resp}
    (room : ¬ (0 < c.bufferSize ∧ c.sentRequests.length = c.bufferSize))
    (views : Views c c' (c.sentRequests ++ [m]) rr sp rp) (n : Nat) :
    c.takes (n + 1) = c'.takes n + 1 := by
  unfold takes
  rw [views.bufferSize, views.sentRequests, List.length_append, List.length_singleton]
  split
  · rfl
  · rename_i bounded
    have limit := (c.requests_length_le bounded).1
    omega

theorem takes_le (c : Connection Req Resp) (n : Nat) : c.takes n ≤ n := by
  unfold takes
  split <;> omega

theorem takes_pos {c : Connection Req Resp} (unsent : c.sentRequests = []) {n : Nat}
    (some : 0 < n) : 0 < c.takes n := by
  unfold takes
  rw [unsent, List.length_nil]
  split <;> omega

theorem Views.trans {c c' c'' : Connection Req Resp} {sr rr sr' rr' : List Req}
    {sp rp sp' rp' : List Resp} (first : Views c c' sr rr sp rp)
    (second : Views c' c'' sr' rr' sp' rp') : Views c c'' sr' rr' sp' rp' := by
  obtain ⟨size, sentReq, readReq, sentResp, readResp⟩ := second
  exact ⟨size.trans first.bufferSize, sentReq, readReq, sentResp, readResp⟩

/-- A loop of reads empties the responses and moves nothing else. -/
theorem getResponses_eq (c : Connection Req Resp) (n : Nat)
    (enough : c.readableResponses.length = n) :
    ∃ c', c.getResponses n = (c.readableResponses, c') ∧
      Views c c' c.sentRequests c.readableRequests c.sentResponses [] := by
  induction n generalizing c with
  | zero =>
    have empty := List.eq_nil_of_length_eq_zero enough
    refine ⟨c, ?_, ?_⟩
    · rw [empty]
      rfl
    · exact ⟨rfl, rfl, rfl, rfl, empty⟩
  | succ n ih =>
    unfold getResponses
    rcases c.getResponse_eq with ⟨_, empty⟩ | ⟨m, c', rest, taken, queue, views⟩
    · rw [empty] at enough
      cases enough
    · rw [queue] at enough
      obtain ⟨c'', later, views'⟩ := ih c' (by rw [views.readableResponses]; simpa using enough)
      rw [taken, queue]
      refine ⟨c'', ?_, ?_⟩
      · dsimp only
        rw [later, views.readableResponses]
      · rw [← views.sentRequests, ← views.readableRequests, ← views.sentResponses]
        exact views.trans views'

theorem drainResponses_eq (c : Connection Req Resp) :
    ∃ c', c.drainResponses = (c.readableResponses, c') ∧
      Views c c' c.sentRequests c.readableRequests c.sentResponses [] :=
  c.getResponses_eq _ rfl

/-- The request direction of `getResponses_eq`. -/
theorem getRequests_eq (c : Connection Req Resp) (n : Nat)
    (enough : c.readableRequests.length = n) :
    ∃ c', c.getRequests n = (c.readableRequests, c') ∧
      Views c c' c.sentRequests [] c.sentResponses c.readableResponses := by
  induction n generalizing c with
  | zero =>
    have empty := List.eq_nil_of_length_eq_zero enough
    refine ⟨c, ?_, ?_⟩
    · rw [empty]
      rfl
    · exact ⟨rfl, rfl, empty, rfl, rfl⟩
  | succ n ih =>
    unfold getRequests
    rcases c.getRequest_eq with ⟨_, empty⟩ | ⟨m, c', rest, taken, queue, views⟩
    · rw [empty] at enough
      cases enough
    · rw [queue] at enough
      obtain ⟨c'', later, views'⟩ := ih c' (by rw [views.readableRequests]; simpa using enough)
      rw [taken, queue]
      refine ⟨c'', ?_, ?_⟩
      · dsimp only
        rw [later, views.readableRequests]
      · rw [← views.sentRequests, ← views.sentResponses, ← views.readableResponses]
        exact views.trans views'

theorem drainRequests_eq (c : Connection Req Resp) :
    ∃ c', c.drainRequests = (c.readableRequests, c') ∧
      Views c c' c.sentRequests [] c.sentResponses c.readableResponses :=
  c.getRequests_eq _ rfl

end Connection

/-- A component seen from one connection to it: in its clock it may read requests
and send responses, and the other side of the connection stays as it is. -/
structure Server (σ Req Resp : Type) where
  clock : σ → Connection Req Resp → σ × Connection Req Resp
  bufferSize : ∀ s c, (clock s c).2.bufferSize = c.bufferSize
  sentRequests : ∀ s c, (clock s c).2.sentRequests = c.sentRequests
  readableResponses : ∀ s c, (clock s c).2.readableResponses = c.readableResponses

namespace Server

variable {σ Req Resp : Type} (respond : σ → Req → σ × Option Resp)

/-- Handle one request; a response that is refused is dropped. -/
def handle (state : σ × Connection Req Resp) (request : Req) : σ × Connection Req Resp :=
  let answer := respond state.1 request
  match answer.2 with
  | none => (answer.1, state.2)
  | some response => (answer.1, (state.2.sendResponse response).getD state.2)

/-- A response is sent, or refused, and nothing else of the connection moves. -/
theorem handle_frame (s : σ) (c : Connection Req Resp) (request : Req) :
    (handle respond (s, c) request).2.bufferSize = c.bufferSize ∧
      (handle respond (s, c) request).2.sentRequests = c.sentRequests ∧
      (handle respond (s, c) request).2.readableResponses = c.readableResponses := by
  unfold handle
  dsimp only
  split
  · exact ⟨rfl, rfl, rfl⟩
  · rename_i response _
    rcases c.sendResponse_eq response with ⟨refused, _⟩ | ⟨c', sent, views, _⟩
    · rw [refused]
      exact ⟨rfl, rfl, rfl⟩
    · rw [sent]
      exact ⟨views.bufferSize, views.sentRequests, views.readableResponses⟩

theorem handle_all_frame (requests : List Req) (s : σ) (c : Connection Req Resp) :
    (requests.foldl (handle respond) (s, c)).2.bufferSize = c.bufferSize ∧
      (requests.foldl (handle respond) (s, c)).2.sentRequests = c.sentRequests ∧
      (requests.foldl (handle respond) (s, c)).2.readableResponses = c.readableResponses := by
  induction requests generalizing s c with
  | nil => exact ⟨rfl, rfl, rfl⟩
  | cons request requests ih =>
    obtain ⟨size, sent, readable⟩ := handle_frame respond s c request
    obtain ⟨size', sent', readable'⟩ :=
      ih (handle respond (s, c) request).1 (handle respond (s, c) request).2
    exact ⟨size'.trans size, sent'.trans sent, readable'.trans readable⟩

/-- With room for them, requests that all get a response get them in order. -/
theorem handle_all_answers {α : Type} (asked : Req → α) (answered : Resp → α)
    (requests : List Req) (s : σ) (c : Connection Req Resp)
    (answers : ∀ s, ∀ request ∈ requests, ∃ response,
      (respond s request).2 = some response ∧ answered response = asked request)
    (room : c.bufferSize ≠ 0 → c.sentResponses.length + requests.length ≤ c.bufferSize) :
    (requests.foldl (handle respond) (s, c)).2.sentResponses.map answered =
      c.sentResponses.map answered ++ requests.map asked := by
  induction requests generalizing s c with
  | nil => simp
  | cons request requests ih =>
    obtain ⟨response, answer, same⟩ := answers s request (by simp)
    rcases c.sendResponse_eq response with ⟨_, bounded, full⟩ | ⟨c', sent, views, _⟩
    · have left := room (by omega)
      rw [full, List.length_cons] at left
      omega
    · have first : handle respond (s, c) request = ((respond s request).1, c') := by
        unfold handle
        dsimp only
        rw [answer]
        dsimp only
        rw [sent]
        rfl
      rw [List.foldl_cons, first, ih]
      · rw [views.sentResponses]
        simp [same]
      · intro s other member
        exact answers s other (List.mem_cons_of_mem request member)
      · rw [views.bufferSize, views.sentResponses, List.length_append, List.length_singleton]
        intro bounded
        have left := room bounded
        rw [List.length_cons] at left
        omega

/-- The component that reads all requests and handles them one by one. -/
def answering : Server σ Req Resp where
  clock s c := c.drainRequests.1.foldl (handle respond) (s, c.drainRequests.2)
  bufferSize s c := by
    obtain ⟨c', drain, views⟩ := c.drainRequests_eq
    rw [drain]
    exact (handle_all_frame respond _ s c').1.trans views.bufferSize
  sentRequests s c := by
    obtain ⟨c', drain, views⟩ := c.drainRequests_eq
    rw [drain]
    exact (handle_all_frame respond _ s c').2.1.trans views.sentRequests
  readableResponses s c := by
    obtain ⟨c', drain, views⟩ := c.drainRequests_eq
    rw [drain]
    exact (handle_all_frame respond _ s c').2.2.trans views.readableResponses

/-- Such a component answers all requests of a cycle in that cycle. -/
theorem answering_answers {α : Type} (asked : Req → α) (answered : Resp → α) (s : σ)
    (c : Connection Req Resp)
    (answers : ∀ s, ∀ request ∈ c.readableRequests, ∃ response,
      (respond s request).2 = some response ∧ answered response = asked request)
    (unsent : c.sentResponses = []) :
    ((answering respond).clock s c).2.sentResponses.map answered =
      c.readableRequests.map asked := by
  obtain ⟨c', drain, views⟩ := c.drainRequests_eq
  unfold answering
  dsimp only
  rw [drain, handle_all_answers respond asked answered _ s c' answers, views.sentResponses, unsent]
  · rfl
  · rw [views.bufferSize, views.sentResponses, unsent]
    intro bounded
    simpa using (c.requests_length_le bounded).2

end Server

end Sinuca3.Source
