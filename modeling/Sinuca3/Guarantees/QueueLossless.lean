import Sinuca3.Guarantees.BufferSizes
import Sinuca3.Source.StdComponents.Queue

/-!
# What a queue loses

A queue takes a message off its connection before it knows whether the next component
accepts it, and the swap throws away what it did not come to. It keeps everything as
long as there never is more than it can pass on. Its throughput is passed on unchecked:
one that is negative as an `int`, or whose octets are too many for one, gives a connection
that the queue writes outside of.
-/
namespace Sinuca3.Guarantees
open Sinuca3.Source Lib

variable {α δ : Type} {n : Nat} (S : Server δ α α) (first : Bool)

/-- What is in a connection. -/
def queued (c : Connection α α) : List α := c.readableRequests ++ c.sentRequests

/-- Every message accepted has been passed on, once and in order, or is still queued; and
the next cycle passes on as many as the throughput allows. -/
structure Lossless (s : (Queue α × δ) × Connections n α α) (log : ComponentLog n α α) : Prop where
  kept : ∀ id, log.accepted id = log.processed id ++ queued (s.2 id)
  passesOn : ∀ c, ((List.finRange n).flatMap fun id =>
      ((Queue.stage S first).cycle s c).2.processed id).length =
    s.1.1.sendTo.takes (Queue.waiting s.2 (List.finRange n)).length

/-- Between cycles nothing is being sent. -/
structure Idle (s : (Queue α × δ) × Connections n α α) : Prop where
  sendTo : s.1.1.sendTo.sentRequests = []
  clients : ∀ id, (s.2 id).sentRequests = []

/-- A queue whose clients have connected with buffers of these sizes. -/
def connected [Inhabited α] (throughput : Option Int) (destination : δ)
    (bufferSizes : Fin n → Int) : (Queue α × δ) × Connections n α α :=
  ((.configure throughput, destination), fun id => .connect (bufferSizes id))

theorem cycle_passesOn {s : (Queue α × δ) × Connections n α α} (idle : Idle s)
    (c : ClientCycle n α) :
    ((List.finRange n).flatMap fun id =>
        ((Queue.stage S first).cycle s c).2.processed id).length =
      s.1.1.sendTo.takes (Queue.waiting s.2 (List.finRange n)).length ∧
    (Queue.WithinThroughput s →
      ∀ id, ((Queue.stage S first).cycle s c).2.processed id = (s.2 id).readableRequests) ∧
    Idle ((Queue.stage S first).cycle s c).1 ∧
    ∀ id, queued (((Queue.stage S first).cycle s c).1.2 id) =
      ((Queue.stage S first).cycle s c).2.accepted id := by
  obtain ⟨early, views, component, events, after⟩ :=
    (Queue.stage S first).cycle_eq (Queue.stage_framed S first) s c
  have waits : Queue.waiting early (List.finRange n) = Queue.waiting s.2 (List.finRange n) :=
    List.flatMap_congr fun id _ => (views id).2.1
  obtain ⟨count, all⟩ := Queue.stage_count S first (s.1, early) idle.sendTo
  refine ⟨?_, fun within id => ?_, ⟨?_, fun id => (after id).2.1⟩, fun id => ?_⟩
  · rw [List.flatMap_congr fun id _ => (events id).1, count, waits]
  · rw [(events id).1, ← (views id).2.1]
    unfold Queue.WithinThroughput at within all
    rw [waits] at all
    exact all within id
  · rw [component]
    exact (Queue.stage_sendTo S first (s.1, early)).2
  · rw [queued, (after id).2.2.2, (after id).2.1, idle.clients, List.append_nil,
      List.nil_append]

/-- A cycle that starts with everything kept keeps everything exactly when what waits
is within the throughput. -/
theorem cycle_lossless_iff {s : (Queue α × δ) × Connections n α α} (idle : Idle s)
    {log : ComponentLog n α α} (lossless : Lossless S first s log) (c : ClientCycle n α) :
    Lossless S first ((Queue.stage S first).cycle s c).1
        (log ++ ((Queue.stage S first).cycle s c).2) ↔ Queue.WithinThroughput s := by
  obtain ⟨count, all, idle', later⟩ := cycle_passesOn S first idle c
  have before : ∀ id, queued (s.2 id) = (s.2 id).readableRequests := by
    intro id
    rw [queued, idle.clients, List.append_nil]
  constructor
  · intro lossless'
    have whole : ∀ id, ((Queue.stage S first).cycle s c).2.processed id =
        (s.2 id).readableRequests := by
      intro id
      have kept := lossless'.kept id
      rw [ComponentLog.accepted_append, ComponentLog.processed_append, lossless.kept, later,
        before] at kept
      exact (List.append_cancel_left (List.append_cancel_right kept)).symm
    rw [List.flatMap_congr fun id _ => whole id] at count
    change (Queue.waiting s.2 (List.finRange n)).length = _ at count
    unfold Connection.takes at count
    rw [idle.sendTo, List.length_nil] at count
    unfold Queue.WithinThroughput
    split at count
    · rename_i unlimited
      exact .inl unlimited
    · right
      omega
  · intro within
    refine ⟨fun id => ?_, fun c' => (cycle_passesOn S first idle' c').1⟩
    rw [ComponentLog.accepted_append, ComponentLog.processed_append, lossless.kept, later, before,
      all within id]

/-- So many messages sent into a buffer that has been flushed are written inside it,
whatever its state is otherwise. -/
def SendsInside (maxBufferSize messageSize : Int) (count : Nat) : Prop :=
  ∀ b : CircularBufferExtent, b.Inside → b.occupation = 0 → b.maxBufferSize = maxBufferSize →
    b.elementSize = messageSize →
    ∀ inside ∈ (Machine.run CircularBufferExtent.step b (List.replicate count .enqueue)).2,
      inside = true

theorem sendsInside_of_fits {maxBufferSize messageSize : Int} (count : Nat)
    (few : maxBufferSize = 0 → count * 2 * messageSize < 2147483648) :
    SendsInside maxBufferSize messageSize count := by
  intro b inside flushed limit size
  apply inside.run
  by_cases growable : maxBufferSize = 0
  · apply inside.growthFits_of_count
    rw [flushed, size, Int.zero_add]
    exact few growable
  · exact CircularBufferExtent.growthFits_of_limited (limit ▸ growable) _

section Run

variable [Inhabited α] (throughput : Option Int) (destination : δ) (bufferSizes : Fin n → Int)
  (cycles : List (ClientCycle n α))

/-- The sizes of the connections are ones that are allocated for messages of so many octets,
and where one of them may grow, an `int` counts twice the octets of what waits. -/
structure QueueAllocated (messageSize : Nat) : Prop where
  sendTo : CircularBufferExtent.Fits (asInt (throughput.getD 0)) messageSize
  clients : ∀ id, CircularBufferExtent.Fits (asInt (bufferSizes id)) messageSize
  growth : (asInt (throughput.getD 0) = 0 ∨ ∃ id, asInt (bufferSizes id) = 0) →
    Machine.Meets (Queue.stage S first).cycle
      (fun s _ => ((Queue.waiting s.2 (List.finRange n)).length : Int) * 2 * messageSize <
        2147483648)
      (connected throughput destination bufferSizes) cycles

/-- For every throughput, number of clients and sizes of their buffers that are allocated,
whatever the clients and the next component do: a queue loses nothing in a run if and only
if in each of its cycles what waits on all connections is at most the throughput, or this
is zero; and it passes on nothing that is written outside. A throughput other than zero is
one for which it never does exactly when it is positive and its octets fit. -/
theorem queue_loses_nothing {messageSize : Nat} (sized : 0 < messageSize) :
    (QueueAllocated S first throughput destination bufferSizes cycles messageSize →
      ((∀ early, early <+: cycles →
        Lossless S first
          (Machine.run (Queue.stage S first).cycle
            (connected throughput destination bufferSizes) early).1
          (Machine.run (Queue.stage S first).cycle
            (connected throughput destination bufferSizes) early).2) ↔
        Machine.Meets (Queue.stage S first).cycle (fun s _ => Queue.WithinThroughput s)
          (connected throughput destination bufferSizes) cycles) ∧
      Machine.Meets (Queue.stage S first).cycle
        (fun s _ => SendsInside (asInt (throughput.getD 0)) messageSize
          (Queue.waiting s.2 (List.finRange n)).length)
        (connected throughput destination bufferSizes) cycles) ∧
    (asInt (throughput.getD 0) ≠ 0 →
      ((∀ ops, EnqueuesInside (asInt (throughput.getD 0)) messageSize ops) ↔
        CircularBufferExtent.Fits (asInt (throughput.getD 0)) messageSize)) := by
  refine ⟨fun allocated => ⟨?lossless, ?written⟩, fun bounded => ?wide⟩
  case lossless =>
    have idle : Idle (connected (α := α) throughput destination bufferSizes) :=
      ⟨rfl, fun _ => rfl⟩
    refine Machine.reached_iff_meets (Queue.stage S first).cycle
      (fun s _ => Queue.WithinThroughput s) (fun s _ => Idle s) (Lossless S first) idle ?_
      (fun s _ c idle => (cycle_passesOn S first idle c).2.2.1)
      (fun s log c idle lossless => cycle_lossless_iff S first idle lossless c) cycles
    exact ⟨fun _ => rfl, fun c => (cycle_passesOn S first idle c).1⟩
  case written =>
    by_cases growable : asInt (throughput.getD 0) = 0
    · refine (allocated.growth (.inl growable)).imp _ fun s _ few => ?_
      exact sendsInside_of_fits _ fun _ => few
    · refine Machine.meets_of_invariant _ _ (fun _ => True) (fun _ _ _ => trivial) ?_ _ trivial _
      exact fun s _ _ => sendsInside_of_fits _ fun none => absurd none growable
  case wide =>
    rw [show (∀ ops, EnqueuesInside (asInt (throughput.getD 0)) messageSize ops) ↔ _ from
      CircularBufferExtent.limited_inside_iff (by omega) bounded]
    unfold CircularBufferExtent.Fits
    rw [if_neg bounded]
    exact and_congr_left fun _ => ⟨Int.le_of_lt, fun natural => by omega⟩

end Run

/-- A component that reads its requests and does not respond. -/
def reader : Server Unit Nat Nat := .answering fun _ _ => ((), none)

/-- Two messages in a cycle and then a third. -/
def threeMessages (client : Fin 1) : List (ClientCycle 1 Nat) :=
  [⟨[.sendRequest client 5, .sendRequest client 6], []⟩, ⟨[.sendRequest client 7], []⟩,
    ⟨[], []⟩]

/-- A queue that passes on two a cycle keeps all of them, and has passed on three. -/
theorem queue_keeps_three :
    ComponentLog.processed 0 (Machine.run (Queue.stage reader true).cycle
        (connected (some 2) () fun _ : Fin 1 => 2) (threeMessages 0)).2 = [5, 6, 7] ∧
      Lossless reader true
        (Machine.run (Queue.stage reader true).cycle
          (connected (some 2) () fun _ : Fin 1 => 2) (threeMessages 0)).1
        (Machine.run (Queue.stage reader true).cycle
          (connected (some 2) () fun _ : Fin 1 => 2) (threeMessages 0)).2 := by
  have allocated : QueueAllocated reader true (some 2) () (fun _ : Fin 1 => 2) (threeMessages 0) 8 :=
    ⟨by decide, fun _ => by decide, fun growable => absurd growable (by decide)⟩
  obtain ⟨lossless, _⟩ := (queue_loses_nothing reader true (some 2) () (fun _ : Fin 1 => 2)
    (threeMessages 0) (by decide)).1 allocated
  refine ⟨by decide, lossless.mpr ?_ (threeMessages 0) (List.prefix_refl _)⟩
  exact ⟨.inr (by decide), .inr (by decide), .inr (by decide), trivial⟩

/-- Two messages sent in a cycle to a queue that passes on one a cycle: the second is
neither passed on nor queued any more. -/
theorem surplus_is_lost :
    ¬ Lossless reader true
      (Machine.run (Queue.stage reader true).cycle (connected (some 1) () fun _ : Fin 1 => 2)
        [⟨[.sendRequest 0 1, .sendRequest 0 2], []⟩, ⟨[], []⟩]).1
      (Machine.run (Queue.stage reader true).cycle (connected (some 1) () fun _ : Fin 1 => 2)
        [⟨[.sendRequest 0 1, .sendRequest 0 2], []⟩, ⟨[], []⟩]).2 := by
  intro lossless
  exact absurd (lossless.kept 0) (by decide)

end Sinuca3.Guarantees
