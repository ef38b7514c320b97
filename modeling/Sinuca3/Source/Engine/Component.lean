import Mathlib.Data.List.FinRange
import Sinuca3.Lib.Machine
import Sinuca3.Source.Engine.Linkable

/-!
# Components and their clients

`engine/component.hpp`. A component has a connection for each call of `Connect`, and
in a cycle its clients call `SendRequest` and `ReceiveResponse` on them, before and
after its `Clock`; `PosClock` swaps the buffers of all. What happens on the connections
is a log of events.
-/
namespace Sinuca3.Source
open Lib

variable {n : Nat} {Req Resp : Type}

/-- The connections by ID. -/
abbrev Connections (n : Nat) (Req Resp : Type) : Type := Fin n → Connection Req Resp

inductive ClientCall (n : Nat) (Req : Type) where
  | sendRequest (connectionID : Fin n) (message : Req)
  | receiveResponse (connectionID : Fin n)

inductive ComponentEvent (Req Resp : Type) where
  /-- `SendRequest` returned 0. -/
  | accepted (message : Req)
  /-- The component read a request and did with it what it is for. -/
  | processed (message : Req)
  /-- `SendResponseToConnection` returned 0. -/
  | answered (response : Resp)
  deriving DecidableEq

/-- Events with the ID of the connection. -/
abbrev ComponentLog (n : Nat) (Req Resp : Type) : Type :=
  List (Fin n × ComponentEvent Req Resp)

namespace ComponentLog

def accepted (id : Fin n) (log : ComponentLog n Req Resp) : List Req :=
  log.filterMap fun
    | (i, .accepted message) => if i = id then some message else none
    | _ => none

def processed (id : Fin n) (log : ComponentLog n Req Resp) : List Req :=
  log.filterMap fun
    | (i, .processed message) => if i = id then some message else none
    | _ => none

def answered (id : Fin n) (log : ComponentLog n Req Resp) : List Resp :=
  log.filterMap fun
    | (i, .answered response) => if i = id then some response else none
    | _ => none

/-- The requests processed on all connections, in order. -/
def handled (log : ComponentLog n Req Resp) : List Req :=
  log.filterMap fun
    | (_, .processed message) => some message
    | _ => none

section Append

variable (id : Fin n) (log more : ComponentLog n Req Resp)

@[simp] theorem accepted_append : accepted id (log ++ more) = accepted id log ++ accepted id more :=
  List.filterMap_append

@[simp] theorem processed_append :
    processed id (log ++ more) = processed id log ++ processed id more :=
  List.filterMap_append

@[simp] theorem answered_append : answered id (log ++ more) = answered id log ++ answered id more :=
  List.filterMap_append

@[simp] theorem handled_append : handled (log ++ more) = handled log ++ handled more :=
  List.filterMap_append

end Append

end ComponentLog

namespace Connections

/-- A call on a full connection, or for a response that is not there, does nothing. -/
def call (connections : Connections n Req Resp) :
    ClientCall n Req → Connections n Req Resp × ComponentLog n Req Resp
  | .sendRequest id message =>
    match (connections id).sendRequest message with
    | none => (connections, [])
    | some c => (Function.update connections id c, [(id, .accepted message)])
  | .receiveResponse id =>
    match (connections id).getResponse with
    | none => (connections, [])
    | some (_, c) => (Function.update connections id c, [])

def calls (connections : Connections n Req Resp) (cs : List (ClientCall n Req)) :
    Connections n Req Resp × ComponentLog n Req Resp :=
  Machine.run call connections cs

def posClock (connections : Connections n Req Resp) : Connections n Req Resp :=
  fun id => (connections id).swapBuffers

/-- What an update of one connection leaves alone is left alone on all. -/
theorem update_frame (connections : Connections n Req Resp) (id : Fin n)
    {c : Connection Req Resp} (size : c.bufferSize = (connections id).bufferSize)
    (sent : c.sentRequests = (connections id).sentRequests) (other : Fin n) :
    (Function.update connections id c other).bufferSize = (connections other).bufferSize ∧
      (Function.update connections id c other).sentRequests =
        (connections other).sentRequests := by
  by_cases same : other = id
  · subst same
    rw [Function.update_self]
    exact ⟨size, sent⟩
  · rw [Function.update_of_ne same]
    exact ⟨rfl, rfl⟩

/-- Of connections, what their component sees of clients: requests join those sent. -/
structure Called (before after : Connections n Req Resp) (log : ComponentLog n Req Resp) :
    Prop where
  bufferSize : ∀ id, (after id).bufferSize = (before id).bufferSize
  sentRequests : ∀ id, (after id).sentRequests = (before id).sentRequests ++ log.accepted id
  readableRequests : ∀ id, (after id).readableRequests = (before id).readableRequests
  sentResponses : ∀ id, (after id).sentResponses = (before id).sentResponses
  processed : ∀ id, log.processed id = []
  answered : ∀ id, log.answered id = []

theorem Called.refl (connections : Connections n Req Resp) :
    Called connections connections [] := by
  refine ⟨fun _ => rfl, fun _ => ?_, fun _ => rfl, fun _ => rfl, fun _ => rfl, fun _ => rfl⟩
  exact (List.append_nil _).symm

theorem Called.trans {before middle after : Connections n Req Resp}
    {log log' : ComponentLog n Req Resp} (first : Called before middle log)
    (second : Called middle after log') : Called before after (log ++ log') where
  bufferSize id := (second.bufferSize id).trans (first.bufferSize id)
  sentRequests id := by
    rw [second.sentRequests, first.sentRequests, ComponentLog.accepted_append, List.append_assoc]
  readableRequests id := (second.readableRequests id).trans (first.readableRequests id)
  sentResponses id := (second.sentResponses id).trans (first.sentResponses id)
  processed id := by rw [ComponentLog.processed_append, first.processed, second.processed]; rfl
  answered id := by rw [ComponentLog.answered_append, first.answered, second.answered]; rfl

/-- On one connection some requests are accepted, and its component sees nothing else. -/
theorem Called.update (connections : Connections n Req Resp) (id : Fin n)
    {c : Connection Req Resp} {readable : List Resp} (messages : List Req)
    (views : (connections id).Views c ((connections id).sentRequests ++ messages)
      (connections id).readableRequests (connections id).sentResponses readable) :
    Called connections (Function.update connections id c)
      (messages.map fun message => (id, .accepted message)) := by
  have others : ∀ other, other ≠ id → ∀ messages : List Req, ComponentLog.accepted other
      (messages.map fun message => ((id, .accepted message) : Fin n × ComponentEvent Req Resp)) =
        [] := by
    intro other different messages
    simp [ComponentLog.accepted, List.filterMap_map, Ne.symm different]
  constructor <;> intro other <;> by_cases same : other = id
  all_goals first
    | subst same
      simp [views.bufferSize, views.sentRequests, views.readableRequests, views.sentResponses,
        ComponentLog.accepted, ComponentLog.processed, ComponentLog.answered, List.filterMap_map]
    | simp [Function.update_of_ne same, others other same, ComponentLog.processed,
        ComponentLog.answered, List.filterMap_map]

theorem call_eq (connections : Connections n Req Resp) (c : ClientCall n Req) :
    Called connections (connections.call c).1 (connections.call c).2 := by
  cases c with
  | sendRequest id message =>
    unfold call
    dsimp only
    rcases (connections id).sendRequest_eq message with ⟨refused, _⟩ | ⟨c', sent, views, _⟩
    · rw [refused]
      exact Called.refl connections
    · rw [sent]
      exact Called.update connections id [message] views
  | receiveResponse id =>
    unfold call
    dsimp only
    rcases (connections id).getResponse_eq with ⟨none, _⟩ | ⟨m, c', rest, taken, _, views⟩
    · rw [none]
      exact Called.refl connections
    · rw [taken]
      rw [← List.append_nil (connections id).sentRequests] at views
      exact Called.update connections id [] views

/-- Clients process nothing. -/
theorem call_handled (connections : Connections n Req Resp) (c : ClientCall n Req) :
    (connections.call c).2.handled = [] := by
  cases c with
  | sendRequest id message =>
    unfold call
    dsimp only
    split <;> rfl
  | receiveResponse id =>
    unfold call
    dsimp only
    split <;> rfl

theorem calls_handled (connections : Connections n Req Resp) (cs : List (ClientCall n Req)) :
    (connections.calls cs).2.handled = [] :=
  Machine.run_induction call (P := fun _ _ log => ComponentLog.handled log = []) rfl
    (fun after _ log c before => by
      rw [ComponentLog.handled_append, before, call_handled]
      rfl) cs

theorem calls_eq (connections : Connections n Req Resp) (cs : List (ClientCall n Req)) :
    Called connections (connections.calls cs).1 (connections.calls cs).2 :=
  Machine.run_induction call (P := fun after _ log => Called connections after log)
    (Called.refl connections)
    (fun after _ _ c before => before.trans (call_eq after c)) cs

end Connections

/-- What clients do in a cycle, before and after the component is clocked. -/
structure ClientCycle (n : Nat) (Req : Type) where
  before : List (ClientCall n Req)
  after : List (ClientCall n Req)

variable {σ : Type}

/-- A component of state `σ` with its connections. -/
abbrev ComponentClock (σ : Type) (n : Nat) (Req Resp : Type) : Type :=
  σ × Connections n Req Resp → (σ × Connections n Req Resp) × ComponentLog n Req Resp

/-- A cycle of the simulation, seen from one component. -/
def ComponentClock.cycle (clock : ComponentClock σ n Req Resp) (s : σ × Connections n Req Resp)
    (c : ClientCycle n Req) : (σ × Connections n Req Resp) × ComponentLog n Req Resp :=
  let early := s.2.calls c.before
  let clocked := clock (s.1, early.1)
  let late := clocked.1.2.calls c.after
  ((clocked.1.1, late.1.posClock), early.2 ++ clocked.2 ++ late.2)

/-- A clock leaves the requests that clients are sending alone. -/
structure ComponentClock.Framed (clock : ComponentClock σ n Req Resp) : Prop where
  bufferSize : ∀ s id, ((clock s).1.2 id).bufferSize = (s.2 id).bufferSize
  sentRequests : ∀ s id, ((clock s).1.2 id).sentRequests = (s.2 id).sentRequests
  accepted : ∀ s id, (clock s).2.accepted id = []

/-- A cycle: the component is clocked with the requests of the cycle before, which are
read or thrown away, and those that clients send are what it reads next. -/
theorem ComponentClock.cycle_eq {clock : ComponentClock σ n Req Resp} (framed : clock.Framed)
    (s : σ × Connections n Req Resp) (c : ClientCycle n Req) :
    ∃ early : Connections n Req Resp,
      (∀ id, (early id).bufferSize = (s.2 id).bufferSize ∧
        (early id).readableRequests = (s.2 id).readableRequests ∧
        (early id).sentResponses = (s.2 id).sentResponses) ∧
      (clock.cycle s c).1.1 = (clock (s.1, early)).1.1 ∧
      (∀ id, (clock.cycle s c).2.processed id = (clock (s.1, early)).2.processed id ∧
        (clock.cycle s c).2.answered id = (clock (s.1, early)).2.answered id) ∧
      ∀ id, ((clock.cycle s c).1.2 id).bufferSize = (s.2 id).bufferSize ∧
        ((clock.cycle s c).1.2 id).sentRequests = [] ∧
        ((clock.cycle s c).1.2 id).sentResponses = [] ∧
        ((clock.cycle s c).1.2 id).readableRequests =
          (s.2 id).sentRequests ++ (clock.cycle s c).2.accepted id := by
  have early := s.2.calls_eq c.before
  have late := (clock (s.1, (s.2.calls c.before).1)).1.2.calls_eq c.after
  refine ⟨(s.2.calls c.before).1, ?_, rfl, ?_, ?_⟩
  · exact fun id =>
      ⟨early.bufferSize id, early.readableRequests id, early.sentResponses id⟩
  · intro id
    constructor
    · simp [cycle, early.processed, late.processed]
    · simp [cycle, early.answered, late.answered]
  · intro id
    refine ⟨?_, ?_, ?_, ?_⟩
    · simp [cycle, Connections.posClock, late.bufferSize, framed.bufferSize, early.bufferSize]
    · simp [cycle, Connections.posClock]
    · simp [cycle, Connections.posClock]
    · simp [cycle, Connections.posClock, late.sentRequests, framed.sentRequests,
        early.sentRequests, framed.accepted]

end Sinuca3.Source
