import Sinuca3.Source.StdComponents.Queue

/-!
# Delay queue

`misc/delay_queue.hpp`. Each message that is read gets the cycle it is to be removed in,
of a clock of 64 bits. The oldest is in `queueFirst`, the others in the delay buffer. In
a cycle the queue first sends what is due and then reads the connections.
-/
namespace Sinuca3.Source
open Lib

structure DelayInput (α : Type) where
  elem : α
  removeAt : BitVec 64
  deriving Inhabited

/-- What an `unsigned long` is as an `int`. Where that comes out negative the code has a
buffer without a block, which a `CircularBuffer` cannot be: what is proved of a queue is
about sizes that are allocated. -/
def intSize (size : BitVec 64) : Nat := (size.setWidth 32).toInt.toNat

theorem intSize_ofNat {size : Nat} (small : size < 2147483648) :
    intSize (BitVec.ofNat 64 size) = size := by
  have whole : ((BitVec.ofNat 64 size).setWidth 32).toNat = size := by
    rw [BitVec.toNat_setWidth, BitVec.toNat_ofNat, Nat.mod_eq_of_lt (by omega),
      Nat.mod_eq_of_lt (by omega)]
  unfold intSize
  rw [BitVec.toInt_eq_toNat_of_lt (by omega), whole, Int.toNat_natCast]

structure DelayQueue (α : Type) where
  queueFirst : DelayInput α
  delayBufferSize : BitVec 64
  delayBuffer : CircularBuffer (DelayInput α) (intSize delayBufferSize)
  /-- The connection to `sendTo`. -/
  sendTo : Connection α α
  cyclesClock : BitVec 64
  occupation : Nat
  throughput : BitVec 64
  delay : BitVec 64

/-- A `Clock`: the messages read with their connections, those that `SendRequest` took, and
how often `Enqueue` or `SendRequest` returned 1. -/
structure DelayReport (n : Nat) (α : Type) where
  received : List (Fin n × α) := []
  sent : List α := []
  failures : Nat := 0
  deriving DecidableEq

namespace DelayReport

variable {n : Nat} {α : Type}

/-- The report of what is done after something else. -/
def join (first second : DelayReport n α) : DelayReport n α where
  received := first.received ++ second.received
  sent := first.sent ++ second.sent
  failures := first.failures + second.failures

def messages (report : DelayReport n α) : List α := report.received.map Prod.snd

end DelayReport

namespace DelayQueue

variable {α δ : Type} {n : Nat}

def isEmpty (q : DelayQueue α) : Bool := q.occupation == 0

def isFull (q : DelayQueue α) : Bool := q.delayBuffer.isFull

def useDelayBuffer (q : DelayQueue α) : Bool := decide (1 ≤ q.delay)

/-- `Enqueue`; `none` is the return code 1. -/
def enqueue (q : DelayQueue α) (elem : α) : Option (DelayQueue α) :=
  if q.isFull then none
  else
    let input : DelayInput α := { elem, removeAt := q.cyclesClock + q.delay }
    let q :=
      if q.isEmpty then { q with queueFirst := input }
      else { q with delayBuffer := (q.delayBuffer.enqueue input).getD q.delayBuffer }
    some { q with occupation := q.occupation + 1 }

/-- `Dequeue`; `none` is the return code 1. An empty delay buffer fills `queueFirst` with
zeros. -/
def dequeue [Inhabited α] (q : DelayQueue α) : Option (DelayInput α × DelayQueue α) :=
  if q.isEmpty then none
  else if q.queueFirst.removeAt > q.cyclesClock then none
  else
    let next :=
      if q.occupation > 1 then
        match q.delayBuffer.dequeue with
        | none => { q with queueFirst := default }
        | some (queueFirst, delayBuffer) => { q with queueFirst, delayBuffer }
      else q
    some (q.queueFirst, { next with occupation := q.occupation - 1 })

/-- `Configure`, once the parameters are read and have the right types. The octets that are
allocated for an input are left to `CircularBufferExtent`. -/
def configure [Inhabited α] (delay : Option Int) (throughput : Int) :
    Except (String × String) (DelayQueue α) :=
  if delay.getD 0 < 0 then .error ("delay", "is not >= 0.")
  else if throughput < 0 then .error ("throughput", "is not >= 0.")
  else
    let delay := BitVec.ofInt 64 (delay.getD 0)
    let throughput := BitVec.ofInt 64 throughput
    let delayBufferSize := if 1 ≤ delay then delay * throughput + throughput - 1 else 0
    .ok {
      queueFirst := default
      delayBufferSize
      delayBuffer := .allocate (intSize delayBufferSize)
      sendTo := .connect throughput.toNat
      cyclesClock := 0
      occupation := 0
      throughput
      delay }

theorem configure_eq [Inhabited α] {given : Option Int} {throughput : Int} {q : DelayQueue α}
    (configured : configure given throughput = .ok q) :
    0 ≤ given.getD 0 ∧ 0 ≤ throughput ∧ ∃ size,
      size = (if 1 ≤ BitVec.ofInt 64 (given.getD 0) then
        BitVec.ofInt 64 (given.getD 0) * BitVec.ofInt 64 throughput +
          BitVec.ofInt 64 throughput - 1 else 0) ∧
      q = {
        queueFirst := default
        delayBufferSize := size
        delayBuffer := .allocate (intSize size)
        sendTo := .connect (BitVec.ofInt 64 throughput).toNat
        cyclesClock := 0
        occupation := 0
        throughput := BitVec.ofInt 64 throughput
        delay := BitVec.ofInt 64 (given.getD 0) } := by
  unfold configure at configured
  split at configured
  · cases configured
  split at configured
  · cases configured
  rename_i delayed some
  cases configured
  exact ⟨Int.not_lt.mp delayed, Int.not_lt.mp some, _, rfl, rfl⟩

/-- The loop that removes what is due. Each turn takes one of the elements out. -/
def drain [Inhabited α] : Nat → DelayQueue α → DelayQueue α × DelayReport n α
  | 0, q => (q, {})
  | left + 1, q =>
    match q.dequeue with
    | none => (q, {})
    | some (input, q) =>
      match q.sendTo.sendRequest input.elem with
      | none =>
        let rest := drain left q
        (rest.1, DelayReport.join { failures := 1 } rest.2)
      | some sendTo =>
        let rest := drain left { q with sendTo }
        (rest.1, DelayReport.join { sent := [input.elem] } rest.2)

/-- What is done with a message that is read, and what is sent; `none` is a return
code 1. -/
def accept (q : DelayQueue α) (elem : α) : Option (DelayQueue α × List α) :=
  if q.useDelayBuffer then (q.enqueue elem).map fun q => (q, [])
  else (q.sendTo.sendRequest elem).map fun sendTo => ({ q with sendTo }, [elem])

/-- The inner loop over what waits on a connection, and whether the clock returns from
it. -/
def receive (id : Fin n) : Nat → DelayQueue α × Connections n α α →
    (DelayQueue α × Connections n α α) × DelayReport n α × Bool
  | 0, s => (s, {}, false)
  | left + 1, s =>
    match (s.2 id).getRequest with
    | none => (s, {}, false)
    | some (elem, c) =>
      let connections := Function.update s.2 id c
      match s.1.accept elem with
      | none => ((s.1, connections), { received := [(id, elem)], failures := 1 }, true)
      | some (q, sent) =>
        let rest := receive id left (q, connections)
        (rest.1, DelayReport.join { received := [(id, elem)], sent } rest.2.1, rest.2.2)

/-- The outer loop. -/
def receiveAll : List (Fin n) → DelayQueue α × Connections n α α →
    (DelayQueue α × Connections n α α) × DelayReport n α
  | [], s => (s, {})
  | id :: ids, s =>
    let first := receive id (s.2 id).readableRequests.length s
    if first.2.2 then (first.1, first.2.1)
    else
      let rest := receiveAll ids first.1
      (rest.1, first.2.1.join rest.2)

def clock [Inhabited α] (s : DelayQueue α × Connections n α α) :
    (DelayQueue α × Connections n α α) × DelayReport n α :=
  let q := { s.1 with cyclesClock := s.1.cyclesClock + 1 }
  let drained := if q.useDelayBuffer then q.drain q.occupation else (q, {})
  let rest := receiveAll (List.finRange n) (drained.1, s.2)
  (rest.1, drained.2.join rest.2)

/-- A cycle of a delay queue with the component it sends to, which is clocked before it or
after it, and its clients. -/
def cycle [Inhabited α] (S : Server δ α α) (first : Bool) (s : (DelayQueue α × δ) × Connections n α α)
    (c : ClientCycle n α) :
    ((DelayQueue α × δ) × Connections n α α) × List (DelayReport n α) :=
  let (q, d) := s.1
  let connections := (s.2.calls c.before).1
  let early := if first then S.clock d q.sendTo else (d, q.sendTo)
  let clocked := clock ({ q with sendTo := early.2 }, connections)
  let q := clocked.1.1
  let late := if first then (early.1, q.sendTo) else S.clock early.1 q.sendTo
  ((({ q with sendTo := late.2.swapBuffers }, late.1), (clocked.1.2.calls c.after).1.posClock),
    [clocked.2])

/-- The queue holds these inputs, oldest first. -/
def Holds (q : DelayQueue α) : List (DelayInput α) → Prop
  | [] => q.occupation = 0 ∧ q.delayBuffer.contents = []
  | first :: later =>
    q.occupation = later.length + 1 ∧ q.queueFirst = first ∧ q.delayBuffer.contents = later

/-- A queue of a delay and a throughput, with what it holds and what it has sent since the
last swap. -/
structure Shows (q : DelayQueue α) (delay throughput : Nat) (cyclesClock : BitVec 64)
    (inputs : List (DelayInput α)) (sent : List α) : Prop where
  delayed : q.delay = BitVec.ofNat 64 delay
  small : delay < 2 ^ 64
  positive : 0 < throughput
  size : 1 ≤ delay → intSize q.delayBufferSize = delay * throughput + throughput - 1
  clocked : q.cyclesClock = cyclesClock
  holds : q.Holds inputs
  room : q.sendTo.bufferSize = 0 ∨ throughput ≤ q.sendTo.bufferSize
  sent : q.sendTo.sentRequests = sent

section Spec

variable {q : DelayQueue α} {delay throughput : Nat} {cyclesClock : BitVec 64}
  {inputs later : List (DelayInput α)} {sent : List α}

theorem Holds.occupation (holds : q.Holds inputs) : q.occupation = inputs.length := by
  cases inputs with
  | nil => exact holds.1
  | cons first later => exact holds.1

theorem Shows.useDelayBuffer (shows : q.Shows delay throughput cyclesClock inputs sent) :
    q.useDelayBuffer = decide (1 ≤ delay) := by
  unfold DelayQueue.useDelayBuffer
  rw [shows.delayed]
  congr 1
  have small := shows.small
  rw [BitVec.le_def, BitVec.toNat_ofNat, Nat.mod_eq_of_lt small]
  rfl

/-- The other component leaves the limit of its connection alone. -/
theorem Shows.reconnect (shows : q.Shows delay throughput cyclesClock inputs sent)
    {c : Connection α α} {sent' : List α} (size : c.bufferSize = q.sendTo.bufferSize)
    (requests : c.sentRequests = sent') :
    Shows { q with sendTo := c } delay throughput cyclesClock inputs sent' :=
  ⟨shows.delayed, shows.small, shows.positive, shows.size, shows.clocked, shows.holds,
    by rw [size]; exact shows.room, requests⟩

/-- A message that is sent while the throughput is not exhausted is not refused. -/
theorem Shows.sendRequest (shows : q.Shows delay throughput cyclesClock inputs sent)
    (free : sent.length < throughput) (elem : α) :
    ∃ sendTo, q.sendTo.sendRequest elem = some sendTo ∧
      Shows { q with sendTo } delay throughput cyclesClock inputs (sent ++ [elem]) := by
  have room := shows.room
  rcases q.sendTo.sendRequest_eq elem with ⟨_, bounded, full⟩ | ⟨sendTo, taken, views, _⟩
  · rw [shows.sent] at full
    omega
  · refine ⟨sendTo, taken, shows.reconnect views.bufferSize ?_⟩
    rw [views.sentRequests, shows.sent]

/-- The oldest input is due. -/
theorem Shows.dequeue [Inhabited α] {first : DelayInput α}
    (shows : q.Shows delay throughput cyclesClock (first :: later) sent)
    (due : first.removeAt ≤ cyclesClock) :
    ∃ q', q.dequeue = some (first, q') ∧ q'.Shows delay throughput cyclesClock later sent := by
  obtain ⟨occupation, oldest, contents⟩ := shows.holds
  have now : ¬ q.queueFirst.removeAt > q.cyclesClock := by
    rw [oldest, shows.clocked]
    exact BitVec.not_lt.mpr due
  unfold DelayQueue.dequeue isEmpty
  rw [if_neg (by rw [occupation]; simp), if_neg now]
  refine ⟨_, congrArg (fun input => some (input, _)) oldest, ?_⟩
  cases later with
  | nil =>
    rw [if_neg (by rw [occupation]; simp)]
    exact ⟨shows.delayed, shows.small, shows.positive, shows.size, shows.clocked,
      ⟨by rw [occupation]; rfl, contents⟩, shows.room, shows.sent⟩
  | cons next later =>
    rw [if_pos (by rw [occupation]; simp)]
    rcases q.delayBuffer.dequeue_eq with ⟨_, empty⟩ | ⟨x, b, taken, rest⟩
    · rw [contents] at empty
      cases empty
    · rw [contents] at rest
      cases rest
      rw [taken]
      exact ⟨shows.delayed, shows.small, shows.positive, shows.size, shows.clocked,
        ⟨by rw [occupation]; rfl, rfl, rfl⟩, shows.room, shows.sent⟩

/-- Nothing is due. -/
theorem Shows.dequeue_none [Inhabited α]
    (shows : q.Shows delay throughput cyclesClock inputs sent)
    (early : ∀ input ∈ inputs.head?, cyclesClock < input.removeAt) : q.dequeue = none := by
  unfold DelayQueue.dequeue isEmpty
  cases inputs with
  | nil => rw [if_pos (by rw [shows.holds.1]; rfl)]
  | cons first later =>
    obtain ⟨occupation, oldest, _⟩ := shows.holds
    rw [if_neg (by rw [occupation]; simp), oldest, shows.clocked,
      if_pos (early first (by simp))]

theorem Shows.enqueue (shows : q.Shows delay throughput cyclesClock inputs sent)
    (delayed : 1 ≤ delay) (free : inputs.length < delay * throughput + throughput) (elem : α) :
    ∃ q', q.enqueue elem = some q' ∧ q'.Shows delay throughput cyclesClock
      (inputs ++ [⟨elem, cyclesClock + BitVec.ofNat 64 delay⟩]) sent := by
  have size := shows.size delayed
  have positive := shows.positive
  have product : throughput ≤ delay * throughput := Nat.le_mul_of_pos_left throughput delayed
  have bounded : intSize q.delayBufferSize ≠ 0 := by omega
  have slots := q.delayBuffer.limit bounded
  have contents := q.delayBuffer.contents_length
  have fits : q.delayBuffer.contents.length < intSize q.delayBufferSize := by
    cases inputs with
    | nil =>
      rw [shows.holds.2, List.length_nil]
      omega
    | cons first later =>
      rw [List.length_cons] at free
      rw [shows.holds.2.2]
      omega
  have stamp : (⟨elem, cyclesClock + BitVec.ofNat 64 delay⟩ : DelayInput α) =
      ⟨elem, q.cyclesClock + q.delay⟩ := by
    rw [shows.clocked, shows.delayed]
  rw [stamp]
  unfold DelayQueue.enqueue isFull CircularBuffer.isFull isEmpty
  rw [if_neg (by rw [beq_iff_eq]; omega)]
  refine ⟨_, rfl, ?_⟩
  cases inputs with
  | nil =>
    obtain ⟨occupation, empty⟩ := shows.holds
    rw [if_pos (by rw [occupation]; rfl)]
    exact ⟨shows.delayed, shows.small, shows.positive, shows.size, shows.clocked,
      ⟨congrArg (· + 1) occupation, rfl, empty⟩, shows.room, shows.sent⟩
  | cons first later =>
    obtain ⟨occupation, oldest, older⟩ := shows.holds
    rw [if_neg (by rw [occupation]; simp)]
    rcases q.delayBuffer.enqueue_eq ⟨elem, q.cyclesClock + q.delay⟩ with
      ⟨_, _, full⟩ | ⟨b, stored, queue, _⟩
    · omega
    · rw [stored]
      refine ⟨shows.delayed, shows.small, shows.positive, shows.size, shows.clocked,
        ⟨?_, oldest, ?_⟩, shows.room, shows.sent⟩
      · change q.occupation + 1 = (later ++ [_]).length + 1
        rw [List.length_append, occupation]
        rfl
      · rw [← older]
        exact queue

/-- What is held of messages read in a cycle, and what of them is sent at once. -/
def kept (delay : Nat) (cyclesClock : BitVec 64) (elems : List α) : List (DelayInput α) :=
  if 1 ≤ delay then elems.map (⟨·, cyclesClock + BitVec.ofNat 64 delay⟩) else []

def passed (delay : Nat) (elems : List α) : List α := if 1 ≤ delay then [] else elems

@[simp] theorem kept_nil (delay : Nat) (cyclesClock : BitVec 64) :
    kept delay cyclesClock ([] : List α) = [] := by
  unfold kept
  split <;> rfl

@[simp] theorem passed_nil (delay : Nat) : passed delay ([] : List α) = [] := by
  unfold passed
  split <;> rfl

theorem kept_append (delay : Nat) (cyclesClock : BitVec 64) (elems more : List α) :
    kept delay cyclesClock (elems ++ more) =
      kept delay cyclesClock elems ++ kept delay cyclesClock more := by
  unfold kept
  split
  · exact List.map_append
  · rfl

theorem passed_append (delay : Nat) (elems more : List α) :
    passed delay (elems ++ more) = passed delay elems ++ passed delay more := by
  unfold passed
  split <;> rfl

/-- Room for so many more messages. -/
def Room (delay throughput : Nat) (inputs : List (DelayInput α)) (sent : List α)
    (messages : Nat) : Prop :=
  if 1 ≤ delay then inputs.length + messages ≤ delay * throughput + throughput
  else sent.length + messages ≤ throughput

theorem Room.of_le {messages fewer : Nat} (room : Room delay throughput inputs sent messages)
    (less : fewer ≤ messages) : Room delay throughput inputs sent fewer := by
  unfold Room at room ⊢
  split at room
  · rename_i delayed
    rw [if_pos delayed]
    omega
  · rename_i through
    rw [if_neg through]
    omega

theorem Room.after {elems : List α} {messages : Nat}
    (room : Room delay throughput inputs sent (elems.length + messages)) :
    Room delay throughput (inputs ++ kept delay cyclesClock elems) (sent ++ passed delay elems)
      messages := by
  unfold Room kept passed at *
  split at room
  · rename_i delayed
    rw [if_pos delayed, if_pos delayed, List.length_append, List.length_map]
    omega
  · rename_i through
    rw [if_neg through, if_neg through, List.length_append]
    omega

theorem Shows.accept (shows : q.Shows delay throughput cyclesClock inputs sent)
    (room : Room delay throughput inputs sent 1) (elem : α) :
    ∃ q', q.accept elem = some (q', passed delay [elem]) ∧
      q'.Shows delay throughput cyclesClock (inputs ++ kept delay cyclesClock [elem])
        (sent ++ passed delay [elem]) := by
  unfold DelayQueue.accept
  rw [shows.useDelayBuffer]
  unfold Room at room
  unfold kept passed
  by_cases delayed : 1 ≤ delay
  · rw [if_pos delayed] at room
    obtain ⟨q', stored, after⟩ := shows.enqueue delayed (by omega) elem
    rw [if_pos (decide_eq_true delayed), if_pos delayed, if_pos delayed, stored,
      List.append_nil]
    exact ⟨q', rfl, after⟩
  · rw [if_neg delayed] at room
    obtain ⟨sendTo, taken, after⟩ := shows.sendRequest (by omega) elem
    rw [if_neg (by rw [decide_eq_true_iff]; exact delayed), if_neg delayed, if_neg delayed,
      taken, List.append_nil]
    exact ⟨_, rfl, after⟩

/-- What is due is sent, and what comes after it stays. -/
theorem Shows.drain [Inhabited α] (n left : Nat) {removeAt : BitVec 64} (due : List α)
    (shows : q.Shows delay throughput cyclesClock (due.map (⟨·, removeAt⟩) ++ later) sent)
    (now : removeAt ≤ cyclesClock) (early : ∀ input ∈ later.head?, cyclesClock < input.removeAt)
    (room : sent.length + due.length ≤ throughput) (enough : due.length ≤ left) :
    ∃ q', q.drain left = (q', ({ sent := due } : DelayReport n α)) ∧
      q'.Shows delay throughput cyclesClock later (sent ++ due) := by
  induction left generalizing q due sent with
  | zero =>
    obtain rfl := List.eq_nil_of_length_eq_zero (Nat.le_zero.mp enough)
    rw [List.append_nil]
    exact ⟨q, rfl, shows⟩
  | succ left ih =>
    unfold DelayQueue.drain
    cases due with
    | nil =>
      rw [shows.dequeue_none early, List.append_nil]
      exact ⟨q, rfl, shows⟩
    | cons elem due =>
      rw [List.length_cons] at room enough
      obtain ⟨q', taken, after⟩ := shows.dequeue now
      obtain ⟨sendTo, accepted, after'⟩ := after.sendRequest (by omega) elem
      obtain ⟨q'', rest, final⟩ := ih due after'
        (by rw [List.length_append, List.length_singleton]; omega) (by omega)
      rw [taken]
      dsimp only
      rw [accepted]
      dsimp only
      rw [rest]
      rw [List.append_assoc] at final
      exact ⟨q'', rfl, final⟩

/-- With room for them, all messages that wait on a connection are read. -/
theorem Shows.receive (id : Fin n) (left : Nat) {connections : Connections n α α}
    (waits : (connections id).readableRequests.length = left)
    (shows : q.Shows delay throughput cyclesClock inputs sent)
    (room : Room delay throughput inputs sent left) :
    ∃ q' connections', DelayQueue.receive id left (q, connections) =
        ((q', connections'),
          { received := (connections id).readableRequests.map (id, ·)
            sent := passed delay (connections id).readableRequests }, false) ∧
      q'.Shows delay throughput cyclesClock
        (inputs ++ kept delay cyclesClock (connections id).readableRequests)
        (sent ++ passed delay (connections id).readableRequests) ∧
      ∀ other, other ≠ id → connections' other = connections other := by
  induction left generalizing q connections inputs sent with
  | zero =>
    have empty := List.eq_nil_of_length_eq_zero waits
    rw [empty, passed_nil, kept_nil, List.append_nil, List.append_nil]
    exact ⟨q, connections, rfl, shows, fun _ _ => rfl⟩
  | succ left ih =>
    unfold DelayQueue.receive
    rcases (connections id).getRequest_eq with ⟨_, empty⟩ | ⟨elem, c, rest, taken, queue, views⟩
    · rw [empty] at waits
      cases waits
    · have one : Room delay throughput inputs sent 1 := room.of_le (Nat.succ_le_succ left.zero_le)
      obtain ⟨q', accepted, after⟩ := shows.accept one elem
      have next : (Function.update connections id c id).readableRequests = rest := by
        rw [Function.update_self, views.readableRequests]
      have left' : rest.length = left := by
        rw [queue] at waits
        exact Nat.succ.inj waits
      obtain ⟨q'', connections', later, final, others⟩ :=
        ih ((congrArg List.length next).trans left') after
          (Room.after (by rwa [List.length_singleton, Nat.add_comm]))
      rw [next] at later final
      rw [taken]
      dsimp only
      rw [accepted]
      dsimp only
      have both : elem :: rest = [elem] ++ rest := rfl
      rw [later, queue, both, kept_append, passed_append, ← List.append_assoc,
        ← List.append_assoc]
      refine ⟨q'', connections', rfl, final, fun other different => ?_⟩
      rw [others other different, Function.update_of_ne different]

/-- What is read on some connections. -/
def readings (connections : Connections n α α) (ids : List (Fin n)) : List (Fin n × α) :=
  ids.flatMap fun id => (connections id).readableRequests.map (id, ·)

theorem messages_readings (connections : Connections n α α) (ids : List (Fin n)) :
    (readings connections ids).map Prod.snd = Queue.waiting connections ids := by
  unfold readings Queue.waiting
  rw [List.map_flatMap]
  apply List.flatMap_congr
  intro id _
  rw [List.map_map]
  exact List.map_id _

theorem Shows.receiveAll (ids : List (Fin n)) (distinct : ids.Nodup)
    {connections : Connections n α α}
    (shows : q.Shows delay throughput cyclesClock inputs sent)
    (room : Room delay throughput inputs sent (Queue.waiting connections ids).length) :
    ∃ q' connections', DelayQueue.receiveAll ids (q, connections) =
        ((q', connections'),
          { received := readings connections ids
            sent := passed delay (Queue.waiting connections ids) }) ∧
      q'.Shows delay throughput cyclesClock
        (inputs ++ kept delay cyclesClock (Queue.waiting connections ids))
        (sent ++ passed delay (Queue.waiting connections ids)) := by
  induction ids generalizing q connections inputs sent with
  | nil =>
    have empty : Queue.waiting connections [] = [] := rfl
    rw [empty, passed_nil, kept_nil, List.append_nil, List.append_nil]
    exact ⟨q, connections, rfl, shows⟩
  | cons id ids ih =>
    obtain ⟨fresh, distinct⟩ := List.nodup_cons.mp distinct
    rw [Queue.waiting_cons] at room
    have first : Room delay throughput inputs sent (connections id).readableRequests.length :=
      room.of_le (Nat.le_add_right _ _)
    obtain ⟨q', connections', here, after, others⟩ := shows.receive id _ rfl first
    have same : ∀ other ∈ ids, connections' other = connections other := by
      intro other member
      apply others
      rintro rfl
      exact fresh member
    have waits : Queue.waiting connections' ids = Queue.waiting connections ids :=
      List.flatMap_congr fun other member => by rw [same other member]
    have reads : readings connections' ids = readings connections ids :=
      List.flatMap_congr fun other member => by rw [same other member]
    have left : Room delay throughput
        (inputs ++ kept delay cyclesClock (connections id).readableRequests)
        (sent ++ passed delay (connections id).readableRequests)
        (Queue.waiting connections' ids).length := by
      rw [waits]
      exact room.after
    have later := ih distinct after left
    rw [waits, reads] at later
    obtain ⟨q'', connections'', rest, final⟩ := later
    have both : Queue.waiting connections (id :: ids) =
        (connections id).readableRequests ++ Queue.waiting connections ids := rfl
    unfold DelayQueue.receiveAll
    dsimp only
    rw [here]
    dsimp only
    rw [rest, both, kept_append, passed_append, ← List.append_assoc, ← List.append_assoc]
    exact ⟨q'', connections'', rfl, final⟩

/-- The queue that `Configure` leaves. -/
theorem shows_configure [Inhabited α] {given : Option Int} {throughput : Int}
    {q : DelayQueue α} (configured : configure given throughput = .ok q)
    (positive : 1 ≤ throughput)
    (fits : given.getD 0 * throughput + throughput - 1 < 2147483648) :
    q.Shows (given.getD 0).toNat throughput.toNat 0 [] [] := by
  obtain ⟨natural, _, size, sized, rfl⟩ := configure_eq configured
  obtain ⟨d, same⟩ := Int.eq_ofNat_of_zero_le natural
  obtain ⟨t, rfl⟩ := Int.eq_ofNat_of_zero_le (Int.le_trans (by decide) positive)
  rw [same] at fits sized ⊢
  have product : ((d * t : Nat) : Int) = (d : Int) * (t : Int) := Int.natCast_mul d t
  have most : d ≤ d * t := Nat.le_mul_of_pos_right d (by omega)
  rw [BitVec.ofInt_natCast, BitVec.ofInt_natCast] at sized
  rw [BitVec.ofInt_natCast, BitVec.ofInt_natCast, Int.toNat_natCast, Int.toNat_natCast,
    BitVec.toNat_ofNat, Nat.mod_eq_of_lt (by omega)]
  refine ⟨rfl, by omega, by omega, fun delayed => ?_, rfl, ⟨rfl, rfl⟩, ?_, rfl⟩
  · have some : (1 : BitVec 64) ≤ BitVec.ofNat 64 d := by
      rw [BitVec.le_def, BitVec.toNat_ofNat, Nat.mod_eq_of_lt (by omega)]
      exact delayed
    have sum : BitVec.ofNat 64 d * BitVec.ofNat 64 t + BitVec.ofNat 64 t - 1 =
        BitVec.ofNat 64 (d * t + t - 1) := by
      rw [← BitVec.ofNat_mul, ← BitVec.ofNat_add]
      exact BitVec.ofNat_sub_ofNat_of_le (d * t + t) 1 (by decide) (by omega)
    dsimp only
    rw [sized, if_pos some, sum]
    exact intSize_ofNat (by omega)
  · dsimp only
    rcases Nat.lt_or_ge t 2147483648 with small | large
    · rw [Connection.bufferSize_connect small]
      exact .inr (Nat.le_refl t)
    · obtain rfl : t = 2147483648 := by omega
      exact .inl rfl

theorem Shows.clock [Inhabited α] {connections : Connections n α α} {due : List α}
    (shows : q.Shows delay throughput cyclesClock
      (due.map (⟨·, cyclesClock + 1⟩) ++ later) [])
    (early : ∀ input ∈ later.head?, cyclesClock + 1 < input.removeAt)
    (through : delay = 0 → due = [])
    (few : due.length ≤ throughput)
    (room : Room delay throughput later due (Queue.waiting connections (List.finRange n)).length) :
    ∃ q' connections', DelayQueue.clock (q, connections) =
        ((q', connections'),
          { received := readings connections (List.finRange n)
            sent := due ++ passed delay (Queue.waiting connections (List.finRange n)) }) ∧
      q'.Shows delay throughput (cyclesClock + 1)
        (later ++ kept delay (cyclesClock + 1) (Queue.waiting connections (List.finRange n)))
        (due ++ passed delay (Queue.waiting connections (List.finRange n))) := by
  have ticked : Shows { q with cyclesClock := q.cyclesClock + 1 } delay throughput
      (cyclesClock + 1) (due.map (⟨·, cyclesClock + 1⟩) ++ later) [] :=
    ⟨shows.delayed, shows.small, shows.positive, shows.size, congrArg (· + 1) shows.clocked,
      shows.holds, shows.room, shows.sent⟩
  unfold DelayQueue.clock
  dsimp only
  rw [ticked.useDelayBuffer]
  by_cases delayed : 1 ≤ delay
  · have enough : due.length ≤ q.occupation := by
      rw [shows.holds.occupation, List.length_append, List.length_map]
      omega
    obtain ⟨q', drained, after⟩ :=
      ticked.drain n q.occupation due (BitVec.le_refl _) early (by simpa using few) enough
    obtain ⟨q'', connections', read, final⟩ :=
      after.receiveAll (List.finRange n) (List.nodup_finRange n) room
    rw [if_pos (decide_eq_true delayed), drained]
    dsimp only
    rw [read]
    exact ⟨q'', connections', rfl, final⟩
  · obtain rfl := through (by omega)
    obtain ⟨q'', connections', read, final⟩ :=
      ticked.receiveAll (List.finRange n) (List.nodup_finRange n) room
    rw [if_neg (by rw [decide_eq_true_iff]; exact delayed)]
    dsimp only
    rw [read]
    exact ⟨q'', connections', rfl, final⟩

end Spec

end DelayQueue

end Sinuca3.Source
