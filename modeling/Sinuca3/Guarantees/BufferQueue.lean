import Sinuca3.Lib.Machine
import Sinuca3.Source.Utils.CircularBufferMemory

/-!
# The circular buffer as a queue

The octets that the copies of the buffer move against a list of elements: the same answers
to every sequence of operations, from every position of the cursors.
-/
namespace Sinuca3.Guarantees
open Sinuca3.Source Lib

/-- An operation of a user, whose elements are all of the size given to `Allocate`. -/
inductive BufferOp (elementSize : Nat) where
  | enqueue (elementInput : Vector Byte elementSize)
  | dequeue
  | flush

/-- What the user sees: the return code, the octets at `elementOutput` and `GetOccupation`. -/
structure BufferReply where
  code : Option Nat
  elementOutput : Option (List Byte)
  occupation : Nat
deriving DecidableEq

variable {elementSize : Nat}

def bufferStep (heap : Nat → Nat → Byte) (m : CircularBufferMemory) :
    BufferOp elementSize → CircularBufferMemory × List BufferReply
  | .enqueue elementInput =>
    let (code, m) := m.enqueue heap elementInput.toList
    (m, [⟨some code, none, m.getOccupation⟩])
  | .dequeue =>
    let (code, elementOutput, m) := m.dequeue
    (m, [⟨some code, some elementOutput, m.getOccupation⟩])
  | .flush => (m.flush, [⟨none, none, m.flush.getOccupation⟩])

/-- The queue the buffer is for: no more than `bufferSize` elements unless that is zero. -/
def queueStep (bufferSize : Nat) (queue : List (List Byte)) :
    BufferOp elementSize → List (List Byte) × List BufferReply
  | .enqueue elementInput =>
    if 0 < bufferSize ∧ queue.length = bufferSize then (queue, [⟨some 1, none, queue.length⟩])
    else (queue ++ [elementInput.toList], [⟨some 0, none, queue.length + 1⟩])
  | .dequeue =>
    match queue with
    | [] => ([], [⟨some 1, some (List.replicate elementSize 0), 0⟩])
    | oldest :: queue => (queue, [⟨some 0, some oldest, queue.length⟩])
  | .flush => ([], [⟨none, none, 0⟩])

/-- The memory of some buffer whose elements are those of a queue. -/
def Queued (bufferSize elementSize : Nat) (m : CircularBufferMemory)
    (queue : List (List Byte)) : Prop :=
  ∃ b : CircularBuffer (List Byte) bufferSize, m.Represents b elementSize ∧ b.contents = queue

theorem Queued.occupation {bufferSize : Nat} {m : CircularBufferMemory}
    {queue : List (List Byte)} (before : Queued bufferSize elementSize m queue) :
    m.getOccupation = queue.length := by
  obtain ⟨b, same, rfl⟩ := before
  rw [CircularBuffer.contents_length]
  exact same.occupation

section Step

variable {bufferSize : Nat} {m : CircularBufferMemory} {queue : List (List Byte)}
  {heap : Nat → Nat → Byte}

/-- `Enqueue` fails exactly when the limit is reached, and then changes nothing. -/
theorem Queued.enqueue (before : Queued bufferSize elementSize m queue)
    (elementInput : Vector Byte elementSize) :
    (0 < bufferSize ∧ queue.length = bufferSize ∧ m.enqueue heap elementInput.toList = (1, m)) ∨
      (¬ (0 < bufferSize ∧ queue.length = bufferSize) ∧
        (m.enqueue heap elementInput.toList).1 = 0 ∧
        Queued bufferSize elementSize (m.enqueue heap elementInput.toList).2
          (queue ++ [elementInput.toList])) := by
  obtain ⟨b, same, rfl⟩ := before
  have size : elementInput.toList.length = elementSize := elementInput.length_toList
  rcases same.enqueue size with ⟨refused, code⟩ | ⟨b', accepted, code, after⟩
  · rcases b.enqueue_eq elementInput.toList with ⟨_, bounded, full⟩ | ⟨b', accepted, _⟩
    · exact .inl ⟨bounded, full, code⟩
    · rw [refused] at accepted
      cases accepted
  · rcases b.enqueue_eq elementInput.toList with ⟨refused, _⟩ | ⟨b'', again, contents, free⟩
    · rw [refused] at accepted
      cases accepted
    · rw [accepted] at again
      cases again
      exact .inr ⟨free, code, b', after, contents⟩

theorem Queued.dequeue (before : Queued bufferSize elementSize m queue) :
    (queue = [] ∧ m.dequeue = (1, List.replicate elementSize 0, m)) ∨
      ∃ oldest rest, queue = oldest :: rest ∧ m.dequeue.1 = 0 ∧ m.dequeue.2.1 = oldest ∧
        Queued bufferSize elementSize m.dequeue.2.2 rest := by
  obtain ⟨b, same, rfl⟩ := before
  rcases same.dequeue with ⟨none, code⟩ | ⟨x, b', taken, code, output, after⟩
  · rcases b.dequeue_eq with ⟨_, empty⟩ | ⟨x, b', taken, _⟩
    · exact .inl ⟨empty, code⟩
    · rw [none] at taken
      cases taken
  · rcases b.dequeue_eq with ⟨none, _⟩ | ⟨x', b'', again, contents⟩
    · rw [none] at taken
      cases taken
    · rw [taken] at again
      cases again
      exact .inr ⟨x, b'.contents, contents, code, output, b', after, rfl⟩

theorem Queued.step (before : Queued bufferSize elementSize m queue)
    (op : BufferOp elementSize) :
    (bufferStep heap m op).2 = (queueStep bufferSize queue op).2 ∧
      Queued bufferSize elementSize (bufferStep heap m op).1
        (queueStep bufferSize queue op).1 := by
  cases op with
  | enqueue elementInput =>
    simp only [bufferStep, queueStep]
    rcases before.enqueue elementInput with ⟨bounded, full, code⟩ | ⟨free, code, after⟩
    · rw [if_pos ⟨bounded, full⟩, code]
      dsimp only
      rw [before.occupation]
      exact ⟨rfl, before⟩
    · rw [if_neg free, code, after.occupation, List.length_append]
      exact ⟨rfl, after⟩
  | dequeue =>
    rcases before.dequeue with ⟨rfl, code⟩ | ⟨oldest, rest, rfl, code, output, after⟩
    · simp only [bufferStep, queueStep]
      rw [code]
      dsimp only
      rw [before.occupation]
      exact ⟨rfl, before⟩
    · simp only [bufferStep, queueStep]
      rw [code, output, after.occupation]
      exact ⟨rfl, after⟩
  | flush =>
    obtain ⟨b, same, rfl⟩ := before
    exact ⟨rfl, b.flush, same.flush, rfl⟩

theorem Queued.run (before : Queued bufferSize elementSize m queue)
    (ops : List (BufferOp elementSize)) :
    (Machine.run (bufferStep heap) m ops).2 = (Machine.run (queueStep bufferSize) queue ops).2 ∧
      Queued bufferSize elementSize (Machine.run (bufferStep heap) m ops).1
        (Machine.run (queueStep bufferSize) queue ops).1 := by
  induction ops generalizing m queue with
  | nil => exact ⟨rfl, before⟩
  | cons op ops ih =>
    obtain ⟨replies, after⟩ := before.step op
    obtain ⟨later, final⟩ := ih after
    rw [Machine.run_cons, Machine.run_cons]
    exact ⟨by rw [replies, later], final⟩

/-- Both cursors stay in the buffer, and the copies in its memory. -/
theorem Queued.cursors (before : Queued bufferSize elementSize m queue) :
    m.startOfBuffer < m.bufferSize ∧ m.endOfBuffer < m.bufferSize ∧
      m.buffer.length = m.bufferSize * elementSize := by
  obtain ⟨b, same, rfl⟩ := before
  have start := b.start_lt
  rw [same.startOfBuffer, same.endOfBuffer, same.bufferSize, b.end_eq]
  exact ⟨start, Nat.mod_lt _ (by omega), same.allocated⟩

/-- Growth from any position of the cursors. -/
theorem Queued.grow (before : Queued bufferSize elementSize m queue) (growable : bufferSize = 0)
    (full : m.isFull = true) :
    (m.grow heap).contents = m.contents ∧ (m.grow heap).bufferSize = 2 * m.bufferSize := by
  obtain ⟨b, same, rfl⟩ := before
  have all : b.occupation = b.bufferSize := by
    rw [← same.occupation, ← same.bufferSize]
    exact beq_iff_eq.mp full
  have after : (m.grow heap).Represents (b.grow all growable) elementSize :=
    same.grow all growable
  rw [after.contents, same.contents, b.contents_grow all growable, after.bufferSize,
    same.bufferSize]
  exact ⟨rfl, Nat.mul_comm _ _⟩

end Step

/-- For every element size, capacity and sequence of operations: the answers are those of
the queue, and in the state reached the elements are in the ring, the cursors inside it,
an element is refused exactly at the limit and growth keeps the queue. -/
theorem circular_buffer_is_queue {elementSize : Nat} (sized : 0 < elementSize) (bufferSize : Nat)
    (heap : Nat → Nat → Byte) (ops : List (BufferOp elementSize)) :
    let allocated := CircularBufferMemory.allocate heap bufferSize elementSize
    let m := (Machine.run (bufferStep heap) allocated ops).1
    let queue := (Machine.run (queueStep bufferSize) [] ops).1
    (Machine.run (bufferStep heap) allocated ops).2 =
        (Machine.run (queueStep bufferSize) [] ops).2 ∧
      m.contents = queue ∧ m.getOccupation = queue.length ∧
      m.startOfBuffer < m.bufferSize ∧ m.endOfBuffer < m.bufferSize ∧
      m.buffer.length = m.bufferSize * elementSize ∧
      (∀ elementInput : Vector Byte elementSize,
        ((m.enqueue heap elementInput.toList).1 = 1 ↔
          0 < bufferSize ∧ queue.length = bufferSize) ∧
        ((m.enqueue heap elementInput.toList).1 = 1 →
          (m.enqueue heap elementInput.toList).2 = m)) ∧
      (bufferSize = 0 → m.isFull = true → (m.grow heap).contents = queue) := by
  intro allocated m queue
  have start : Queued bufferSize elementSize allocated [] :=
    ⟨.allocate bufferSize, CircularBufferMemory.represents_allocate heap bufferSize sized, rfl⟩
  obtain ⟨replies, reached⟩ := start.run ops
  have contents : m.contents = queue := by
    obtain ⟨b, same, elements⟩ := reached
    exact same.contents.trans elements
  obtain ⟨first, last, memory⟩ := reached.cursors
  refine ⟨replies, contents, reached.occupation, first, last, memory, fun elementInput => ?_,
    fun growable full => (reached.grow growable full).1.trans contents⟩
  rcases reached.enqueue elementInput with ⟨bounded, full, code⟩ | ⟨free, code, _⟩
  · rw [code]
    exact ⟨iff_of_true rfl ⟨bounded, full⟩, fun _ => rfl⟩
  · rw [code]
    exact ⟨iff_of_false (by decide) free, fun refused => absurd refused (by decide)⟩

/-- A queue of two elements of one octet: the third is refused, and the ring wraps. -/
theorem circular_buffer_is_queue_of_two : 0 < 1 ∧
    (Machine.run (bufferStep fun _ _ => 0) (CircularBufferMemory.allocate (fun _ _ => 0) 2 1)
      [.enqueue #v[1], .enqueue #v[2], .enqueue #v[3], .dequeue, .enqueue #v[4], .dequeue,
        .dequeue, .dequeue]).2 =
    [⟨some 0, none, 1⟩, ⟨some 0, none, 2⟩, ⟨some 1, none, 2⟩, ⟨some 0, some [1], 1⟩,
      ⟨some 0, none, 2⟩, ⟨some 0, some [2], 1⟩, ⟨some 0, some [4], 0⟩, ⟨some 1, some [0], 0⟩] :=
  ⟨by decide, (circular_buffer_is_queue (by decide) 2 (fun _ _ => 0) _).1.trans rfl⟩

end Sinuca3.Guarantees
