import Sinuca3.Lib.Interaction
import Sinuca3.Source.Engine.Linkable

/-!
# A simulated cycle does not depend on component order

One iteration of the `Simulate` loop calls `Clock` on every component of the
list and then `PosClock` on every one. A component's `Clock` is any terminating
program over its own fields and its own ends of connections: on those it created
it may send requests, receive responses and ask for availability; on those that
lead to it, receive requests and send responses. The typing of `PortOp` makes
any other access impossible. Connections form any graph, self-loops and parallel
connections included, and buffers may grow.
-/
namespace Sinuca3.Guarantees
open Sinuca3.Source Lib.Interaction

/-- Operations of the side that created a connection. -/
inductive SourceOp (Req : Type) where
  | sendRequest (message : Req)
  | receiveResponse
  | isComponentAvailable

/-- Operations of the side a connection leads to. -/
inductive DestOp (Resp : Type) where
  | receiveRequestFromConnection
  | sendResponseToConnection (message : Resp)

section Sides

variable {Req Resp : Type}

def SourceOp.Ans (Resp : Type) : SourceOp Req → Type
  | .sendRequest _ => Bool
  | .receiveResponse => Option Resp
  | .isComponentAvailable => Bool

def DestOp.Ans (Req : Type) : DestOp Resp → Type
  | .receiveRequestFromConnection => Option Req
  | .sendResponseToConnection _ => Bool

def sourceAct : (op : SourceOp Req) → Connection Req Resp → op.Ans Resp × Connection Req Resp
  | .sendRequest m, c =>
    match c.sendRequest m with
    | none => (false, c)
    | some c' => (true, c')
  | .receiveResponse, c =>
    match c.getResponse with
    | none => (none, c)
    | some (m, c') => (some m, c')
  | .isComponentAvailable, c => (c.isConnectionAvailable, c)

def destAct : (op : DestOp Resp) → Connection Req Resp → op.Ans Req × Connection Req Resp
  | .receiveRequestFromConnection, c =>
    match c.getRequest with
    | none => (none, c)
    | some (m, c') => (some m, c')
  | .sendResponseToConnection m, c =>
    match c.sendResponse m with
    | none => (false, c)
    | some c' => (true, c')

/-- An action on the two buffers of a connection that have index `id`. -/
def onHalf {A : Type} (id : Fin 2)
    (f : ∀ n, CircularBuffer Req n × CircularBuffer Resp n →
      A × CircularBuffer Req n × CircularBuffer Resp n)
    (c : Connection Req Resp) : A × Connection Req Resp :=
  let result := f c.bufferSize (c.requestBuffers id, c.responseBuffers id)
  (result.1, { c with
    requestBuffers := Function.update c.requestBuffers id result.2.1
    responseBuffers := Function.update c.responseBuffers id result.2.2 })

theorem onHalf_independent {A B : Type} {id id' : Fin 2} (different : id ≠ id')
    (f : ∀ n, CircularBuffer Req n × CircularBuffer Resp n →
      A × CircularBuffer Req n × CircularBuffer Resp n)
    (g : ∀ n, CircularBuffer Req n × CircularBuffer Resp n →
      B × CircularBuffer Req n × CircularBuffer Resp n) :
    Independent (onHalf id f) (onHalf id' g) := by
  intro c
  simp only [onHalf, Function.update_of_ne different, Function.update_of_ne different.symm,
    Function.update_comm different, and_self]

/-- The source's operations as actions on its half. -/
def sourceHalf (op : SourceOp Req) (n : Nat) :
    CircularBuffer Req n × CircularBuffer Resp n →
      op.Ans Resp × CircularBuffer Req n × CircularBuffer Resp n :=
  match op with
  | .sendRequest m => fun (requests, responses) =>
    match requests.enqueue m with
    | none => (false, requests, responses)
    | some requests' => (true, requests', responses)
  | .receiveResponse => fun (requests, responses) =>
    match responses.dequeue with
    | none => (none, requests, responses)
    | some (m, responses') => (some m, requests, responses')
  | .isComponentAvailable => fun (requests, responses) => (!requests.isFull, requests, responses)

/-- The destination's operations as actions on its half. -/
def destHalf (op : DestOp Resp) (n : Nat) :
    CircularBuffer Req n × CircularBuffer Resp n →
      op.Ans Req × CircularBuffer Req n × CircularBuffer Resp n :=
  match op with
  | .receiveRequestFromConnection => fun (requests, responses) =>
    match requests.dequeue with
    | none => (none, requests, responses)
    | some (m, requests') => (some m, requests', responses)
  | .sendResponseToConnection m => fun (requests, responses) =>
    match responses.enqueue m with
    | none => (false, requests, responses)
    | some responses' => (true, requests, responses')

theorem sourceAct_eq_onHalf (op : SourceOp Req) :
    (sourceAct op : Connection Req Resp → _) = onHalf sourceId (sourceHalf op) := by
  funext c
  cases op with
  | sendRequest m =>
    cases sent : (c.requestBuffers sourceId).enqueue m <;>
      simp [sourceAct, onHalf, sourceHalf, Connection.sendRequest,
        Connection.insertIntoRequestBuffer, sent]
  | receiveResponse =>
    cases taken : (c.responseBuffers sourceId).dequeue <;>
      simp [sourceAct, onHalf, sourceHalf, Connection.getResponse,
        Connection.removeFromAResponseBuffer, taken]
  | isComponentAvailable =>
    simp [sourceAct, onHalf, sourceHalf, Connection.isConnectionAvailable,
      Connection.isRequestBufferAvailable]

theorem destAct_eq_onHalf (op : DestOp Resp) :
    (destAct op : Connection Req Resp → _) = onHalf destId (destHalf op) := by
  funext c
  cases op with
  | receiveRequestFromConnection =>
    cases taken : (c.requestBuffers destId).dequeue <;>
      simp [destAct, onHalf, destHalf, Connection.getRequest,
        Connection.removeFromARequestBuffer, taken]
  | sendResponseToConnection m =>
    cases sent : (c.responseBuffers destId).enqueue m <;>
      simp [destAct, onHalf, destHalf, Connection.sendResponse,
        Connection.insertIntoResponseBuffer, sent]

/-- The source works on the buffers with index `sourceId`, the destination on
those with index `destId`, so neither sees what the other does in a cycle. -/
theorem sourceAct_independent_destAct (op : SourceOp Req) (op' : DestOp Resp) :
    Independent (sourceAct op : Connection Req Resp → _) (destAct op') := by
  rw [sourceAct_eq_onHalf, destAct_eq_onHalf]
  exact onHalf_independent Connection.source_ne_dest _ _

end Sides

/-- Who created each connection and where it leads. -/
structure Topology (ι κ : Type) where
  source : κ → ι
  destination : κ → ι

section Cycle

variable {ι κ : Type} (T : Topology ι κ) {Req Resp : κ → Type} {σ : ι → Type}

/-- What component `i` may do to the connections during its `Clock`. -/
inductive PortOp (Req Resp : κ → Type) (i : ι) where
  | source (k : κ) (mine : T.source k = i) (op : SourceOp (Req k))
  | destination (k : κ) (mine : T.destination k = i) (op : DestOp (Resp k))

def PortOp.Ans {T : Topology ι κ} {i : ι} : PortOp T Req Resp i → Type
  | .source k _ op => op.Ans (Resp k)
  | .destination k _ op => op.Ans (Req k)

/-- All connections of the simulation. -/
abbrev Wires (Req Resp : κ → Type) : Type := ∀ k, Connection (Req k) (Resp k)

/-- Component states and connections at a cycle boundary. -/
structure SimulationState (Req Resp : κ → Type) (σ : ι → Type) where
  components : ∀ i, σ i
  wires : Wires Req Resp

/-- `Clock` of every component: a program from its own fields to its own fields. -/
abbrev Clocks (T : Topology ι κ) (Req Resp : κ → Type) (σ : ι → Type) : Type :=
  ∀ i, σ i → Prog (PortOp T Req Resp i) PortOp.Ans (σ i)

variable {T}

section PosClock

variable [DecidableEq ι]

/-- `PosClock`: a component swaps the connections that lead to it. -/
def posClockComponent (T : Topology ι κ) (w : SimulationState Req Resp σ) (i : ι) :
    SimulationState Req Resp σ :=
  ⟨w.components, fun k =>
    if T.destination k = i then (w.wires k).swapBuffers else w.wires k⟩

theorem posClockComponent_comm (i j : ι) (w : SimulationState Req Resp σ) :
    posClockComponent T (posClockComponent T w i) j =
      posClockComponent T (posClockComponent T w j) i := by
  simp only [posClockComponent, SimulationState.mk.injEq, true_and]
  funext k
  split
  · split <;> rfl
  · rfl

end PosClock

variable [DecidableEq κ]

def portHandler (T : Topology ι κ) (i : ι) :
    Handler (Wires Req Resp) (PortOp T Req Resp i) PortOp.Ans
  | .source k _ op => onMember k (sourceAct op)
  | .destination k _ op => onMember k (destAct op)

/-- Two components have no operation on the same half of a connection. -/
theorem portHandler_independent {i j : ι} (different : i ≠ j) (op : PortOp T Req Resp i)
    (op' : PortOp T Req Resp j) :
    Independent (portHandler T i op) (portHandler T j op') := by
  cases op with
  | source k mine op =>
    cases op' with
    | source k' mine' op' =>
      have apart : k ≠ k' := by rintro rfl; exact different (mine.symm.trans mine')
      exact onMember_independent_of_ne apart _ _
    | destination k' mine' op' =>
      by_cases same : k = k'
      · subst same
        exact onMember_independent k _ _ (sourceAct_independent_destAct op op')
      · exact onMember_independent_of_ne same _ _
  | destination k mine op =>
    cases op' with
    | source k' mine' op' =>
      by_cases same : k = k'
      · subst same
        exact onMember_independent k _ _ (sourceAct_independent_destAct op' op).symm
      · exact onMember_independent_of_ne same _ _
    | destination k' mine' op' =>
      have apart : k ≠ k' := by rintro rfl; exact different (mine.symm.trans mine')
      exact onMember_independent_of_ne apart _ _

variable [DecidableEq ι]

def clockComponent (clock : Clocks T Req Resp σ) (w : SimulationState Req Resp σ) (i : ι) :
    SimulationState Req Resp σ :=
  let result := (clock i (w.components i)).run (portHandler T i) w.wires
  ⟨Function.update w.components i result.1, result.2⟩

/-- One iteration of the `Simulate` loop over the component list. -/
def simulateCycle (clock : Clocks T Req Resp σ) (components : List ι)
    (w : SimulationState Req Resp σ) : SimulationState Req Resp σ :=
  components.foldl (posClockComponent T) (components.foldl (clockComponent clock) w)

theorem clockComponent_comm (clock : Clocks T Req Resp σ) (i j : ι)
    (w : SimulationState Req Resp σ) :
    clockComponent clock (clockComponent clock w i) j =
      clockComponent clock (clockComponent clock w j) i := by
  by_cases same : i = j
  · subst same; rfl
  · have apart : j ≠ i := Ne.symm same
    obtain ⟨first, second, wires⟩ := Prog.run_independent_run (portHandler T i) (portHandler T j)
      (portHandler_independent same) (clock i (w.components i)) (clock j (w.components j)) w.wires
    simp only [clockComponent, Function.update_of_ne same, Function.update_of_ne apart,
      first, second, wires, Function.update_comm apart]

/-- Permuting the component list changes neither a component's state nor any
buffer, ring positions and growth included. -/
theorem simulateCycle_perm (clock : Clocks T Req Resp σ) (components components' : List ι)
    (reordered : components.Perm components') (w : SimulationState Req Resp σ) :
    simulateCycle clock components w = simulateCycle clock components' w := by
  have clocked : components.foldl (clockComponent clock) w =
      components'.foldl (clockComponent clock) w :=
    reordered.foldl_eq' (fun i _ j _ z => clockComponent_comm clock i j z) w
  rw [simulateCycle, simulateCycle, clocked]
  exact reordered.foldl_eq' (fun i _ j _ z => posClockComponent_comm i j z) _

end Cycle

inductive Party where
  | client | server
  deriving DecidableEq

/-- A client with one connection to a server. -/
def clientServer : Topology Party Unit where
  source := fun _ => .client
  destination := fun _ => .server

/-- The client sends its counter, the server keeps the last request it received. -/
def clientServerClock :
    Clocks clientServer (fun _ => Nat) (fun _ => Nat) (fun _ => Nat)
  | .client => fun n => .call (.source () rfl (.sendRequest n)) fun (_ : Bool) => .ret (n + 1)
  | .server => fun last => .call (.destination () rfl .receiveRequestFromConnection)
      fun (request : Option Nat) => .ret (request.getD last)

def clientServerStart :
    SimulationState (fun _ : Unit => Nat) (fun _ => Nat) (fun _ : Party => Nat) :=
  ⟨fun _ => 0, fun _ => .createBuffers 2⟩

theorem simulateCycle_perm_clientServer :
    simulateCycle clientServerClock [.client, .server] clientServerStart =
      simulateCycle clientServerClock [.server, .client] clientServerStart :=
  simulateCycle_perm clientServerClock [.client, .server] [.server, .client]
    (List.Perm.swap Party.server Party.client []) clientServerStart

end Sinuca3.Guarantees
