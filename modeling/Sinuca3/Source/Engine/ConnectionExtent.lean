import Sinuca3.Source.Engine.Linkable
import Sinuca3.Source.Utils.CircularBufferExtent

/-!
# Extents of connections

`engine/linkable.cpp` with the size of a message, of which there are `int`s as of the size of
a buffer: the four buffers of a connection as their extents. `extents` are those of a
`Connection`, which has the messages and leaves their size out.
-/
namespace Sinuca3.Source

structure ConnectionExtent where
  requestBuffers : Fin 2 → CircularBufferExtent
  responseBuffers : Fin 2 → CircularBufferExtent

namespace ConnectionExtent

def createBuffers (bufferSize messageSize : Int) : ConnectionExtent where
  requestBuffers := fun _ => .allocate bufferSize messageSize
  responseBuffers := fun _ => .allocate bufferSize messageSize

def swapBuffers (c : ConnectionExtent) : ConnectionExtent :=
  let requests := fun id => c.requestBuffers (if id = sourceId then destId else sourceId)
  let responses := fun id => c.responseBuffers (if id = sourceId then destId else sourceId)
  { requestBuffers := Function.update requests sourceId (requests sourceId).flush
    responseBuffers := Function.update responses destId (responses destId).flush }

/-- With whether the copies of the `Enqueue` stay inside. -/
def insertIntoRequestBuffer (c : ConnectionExtent) (id : Fin 2) : Bool × ConnectionExtent :=
  let b := (c.requestBuffers id).enqueue
  (b.1, { c with requestBuffers := Function.update c.requestBuffers id b.2 })

def insertIntoResponseBuffer (c : ConnectionExtent) (id : Fin 2) : Bool × ConnectionExtent :=
  let b := (c.responseBuffers id).enqueue
  (b.1, { c with responseBuffers := Function.update c.responseBuffers id b.2 })

def removeFromARequestBuffer (c : ConnectionExtent) (id : Fin 2) : ConnectionExtent :=
  { c with
    requestBuffers := Function.update c.requestBuffers id (c.requestBuffers id).dequeue }

def removeFromAResponseBuffer (c : ConnectionExtent) (id : Fin 2) : ConnectionExtent :=
  { c with
    responseBuffers := Function.update c.responseBuffers id (c.responseBuffers id).dequeue }

/-- All four have room for their elements. -/
structure Inside (c : ConnectionExtent) : Prop where
  requests : ∀ id, (c.requestBuffers id).Inside
  responses : ∀ id, (c.responseBuffers id).Inside

theorem inside_update {buffers : Fin 2 → CircularBufferExtent} (all : ∀ id, (buffers id).Inside)
    (id : Fin 2) {b : CircularBufferExtent} (inside : b.Inside) (other : Fin 2) :
    (Function.update buffers id b other).Inside := by
  rw [Function.update_apply]
  split
  · exact inside
  · exact all other

theorem Inside.createBuffers {bufferSize messageSize : Int} (sized : 0 < messageSize)
    (fits : CircularBufferExtent.Fits bufferSize messageSize) :
    (createBuffers bufferSize messageSize).Inside where
  requests := fun _ => CircularBufferExtent.inside_allocate sized fits
  responses := fun _ => CircularBufferExtent.inside_allocate sized fits

variable {c : ConnectionExtent} (inside : c.Inside)
include inside

theorem Inside.swapBuffers : c.swapBuffers.Inside where
  requests := inside_update (fun _ => inside.requests _) sourceId (inside.requests destId).flush
  responses := inside_update (fun _ => inside.responses _) destId (inside.responses sourceId).flush

theorem Inside.insertIntoRequestBuffer {id : Fin 2}
    (room : (c.requestBuffers id).GrowthFits .enqueue) :
    (c.insertIntoRequestBuffer id).1 = true ∧ (c.insertIntoRequestBuffer id).2.Inside := by
  obtain ⟨copied, after⟩ := (inside.requests id).enqueue room
  exact ⟨copied, inside_update inside.requests id after, inside.responses⟩

theorem Inside.insertIntoResponseBuffer {id : Fin 2}
    (room : (c.responseBuffers id).GrowthFits .enqueue) :
    (c.insertIntoResponseBuffer id).1 = true ∧ (c.insertIntoResponseBuffer id).2.Inside := by
  obtain ⟨copied, after⟩ := (inside.responses id).enqueue room
  exact ⟨copied, inside.requests, inside_update inside.responses id after⟩

theorem Inside.removeFromARequestBuffer (id : Fin 2) : (c.removeFromARequestBuffer id).Inside where
  requests := inside_update inside.requests id (inside.requests id).dequeue
  responses := inside.responses

theorem Inside.removeFromAResponseBuffer (id : Fin 2) :
    (c.removeFromAResponseBuffer id).Inside where
  requests := inside.requests
  responses := inside_update inside.responses id (inside.responses id).dequeue

end ConnectionExtent

namespace Connection

variable {Req Resp : Type} (c : Connection Req Resp) {messageSize : Nat}

/-- The extents of the buffers of a connection whose messages have so many octets. -/
def extents (messageSize : Nat) : ConnectionExtent where
  requestBuffers := fun id => (c.requestBuffers id).extents messageSize
  responseBuffers := fun id => (c.responseBuffers id).extents messageSize

theorem extents_createBuffers [Inhabited Req] [Inhabited Resp] {bufferSize : Nat}
    (sized : 0 < messageSize) (fits : CircularBufferExtent.Fits bufferSize messageSize) :
    ConnectionExtent.createBuffers bufferSize messageSize =
      (createBuffers bufferSize : Connection Req Resp).extents messageSize :=
  congrArg₂ ConnectionExtent.mk
    (funext fun _ => CircularBuffer.extents_allocate sized fits)
    (funext fun _ => CircularBuffer.extents_allocate sized fits)

/-- One of the buffers is replaced, and its extent with it. -/
theorem extents_update {α : Type} {bufferSize : Nat}
    (buffers : Fin 2 → CircularBuffer α bufferSize) (id : Fin 2)
    (b : CircularBuffer α bufferSize) :
    Function.update (fun other => (buffers other).extents messageSize) id
        (b.extents messageSize) =
      fun other => (Function.update buffers id b other).extents messageSize :=
  (Function.comp_update (fun b => CircularBuffer.extents b messageSize) buffers id b).symm

theorem extents_swapBuffers :
    (c.extents messageSize).swapBuffers = c.swapBuffers.extents messageSize :=
  congrArg₂ ConnectionExtent.mk
    (extents_update (fun id => c.requestBuffers (if id = sourceId then destId else sourceId))
      sourceId (c.requestBuffers destId).flush)
    (extents_update (fun id => c.responseBuffers (if id = sourceId then destId else sourceId))
      destId (c.responseBuffers sourceId).flush)

variable (inside : (c.extents messageSize).Inside)
include inside

theorem requests_fit (id : Fin 2) :
    (c.requestBuffers id).bufferSize * messageSize < 2147483648 := by
  have octets : ((c.requestBuffers id).bufferSize : Int) * messageSize < 2147483648 :=
    (inside.requests id).fits
  exact_mod_cast octets

theorem responses_fit (id : Fin 2) :
    (c.responseBuffers id).bufferSize * messageSize < 2147483648 := by
  have octets : ((c.responseBuffers id).bufferSize : Int) * messageSize < 2147483648 :=
    (inside.responses id).fits
  exact_mod_cast octets

variable (sized : 0 < messageSize)
include sized

/-- As long as a growth fits, the extents move as the connection does, which a message that
is refused leaves as it is. -/
theorem extents_insertIntoRequestBuffer (id : Fin 2) (message : Req)
    (room : ((c.extents messageSize).requestBuffers id).GrowthFits .enqueue) :
    ((c.extents messageSize).insertIntoRequestBuffer id).2 =
      ((c.insertIntoRequestBuffer id message).getD c).extents messageSize := by
  have enqueued := (c.requestBuffers id).extents_enqueue sized (c.requests_fit inside id)
    message room
  unfold ConnectionExtent.insertIntoRequestBuffer insertIntoRequestBuffer extents
  dsimp only
  rw [enqueued, extents_update]
  cases (c.requestBuffers id).enqueue message with
  | none => rw [Option.getD_none, Function.update_eq_self]; rfl
  | some b => rfl

theorem extents_insertIntoResponseBuffer (id : Fin 2) (message : Resp)
    (room : ((c.extents messageSize).responseBuffers id).GrowthFits .enqueue) :
    ((c.extents messageSize).insertIntoResponseBuffer id).2 =
      ((c.insertIntoResponseBuffer id message).getD c).extents messageSize := by
  have enqueued := (c.responseBuffers id).extents_enqueue sized (c.responses_fit inside id)
    message room
  unfold ConnectionExtent.insertIntoResponseBuffer insertIntoResponseBuffer extents
  dsimp only
  rw [enqueued, extents_update]
  cases (c.responseBuffers id).enqueue message with
  | none => rw [Option.getD_none, Function.update_eq_self]; rfl
  | some b => rfl

theorem extents_removeFromARequestBuffer (id : Fin 2) :
    (c.extents messageSize).removeFromARequestBuffer id =
      (((c.removeFromARequestBuffer id).map Prod.snd).getD c).extents messageSize := by
  have dequeued := (c.requestBuffers id).extents_dequeue sized (c.requests_fit inside id)
  unfold ConnectionExtent.removeFromARequestBuffer removeFromARequestBuffer extents
  dsimp only
  rw [dequeued, extents_update]
  cases (c.requestBuffers id).dequeue with
  | none => rw [Option.map_none, Option.getD_none, Function.update_eq_self]; rfl
  | some taken => rfl

theorem extents_removeFromAResponseBuffer (id : Fin 2) :
    (c.extents messageSize).removeFromAResponseBuffer id =
      (((c.removeFromAResponseBuffer id).map Prod.snd).getD c).extents messageSize := by
  have dequeued := (c.responseBuffers id).extents_dequeue sized (c.responses_fit inside id)
  unfold ConnectionExtent.removeFromAResponseBuffer removeFromAResponseBuffer extents
  dsimp only
  rw [dequeued, extents_update]
  cases (c.responseBuffers id).dequeue with
  | none => rw [Option.map_none, Option.getD_none, Function.update_eq_self]; rfl
  | some taken => rfl

end Connection

end Sinuca3.Source
