import Sinuca3.Lib.Block
import Sinuca3.Lib.Codec
import Sinuca3.Source.Utils.CircularBuffer

/-!
# Circular buffer over octets

`utils/circular_buffer.cpp` with its memory: cursors count elements, copies count octets.
Every number is one that fits in an `int` and none is negative. `Represents` ties the
memory to a `CircularBuffer`, and each operation to the one of that name.
-/
namespace Sinuca3.Source
open Lib

/-- What `malloc` returns for a size, whatever it holds. -/
def malloc (heap : Nat → Nat → Byte) (size : Nat) : List Byte := (List.range size).map (heap size)

@[simp] theorem length_malloc (heap : Nat → Nat → Byte) (size : Nat) :
    (malloc heap size).length = size := by
  simp [malloc]

structure CircularBufferMemory where
  buffer : List Byte := []
  occupation : Nat := 0
  maxBufferSize : Nat := 0
  bufferSize : Nat := 0
  elementSize : Nat := 0
  startOfBuffer : Nat := 0
  endOfBuffer : Nat := 0

namespace CircularBufferMemory

def getOccupation (m : CircularBufferMemory) : Nat := m.occupation

def isFull (m : CircularBufferMemory) : Bool := m.occupation == m.bufferSize

def isEmpty (m : CircularBufferMemory) : Bool := m.occupation == 0

def allocate (heap : Nat → Nat → Byte) (bufferSize elementSize : Nat) : CircularBufferMemory :=
  if elementSize = 0 then {}
  else if bufferSize = 0 then
    { elementSize
      maxBufferSize := bufferSize
      bufferSize := defaultBufferSize
      buffer := malloc heap (defaultBufferSize * elementSize) }
  else
    { elementSize
      maxBufferSize := bufferSize
      bufferSize
      buffer := malloc heap (bufferSize * elementSize) }

/-- The growth branch of `Enqueue`. -/
def grow (heap : Nat → Nat → Byte) (m : CircularBufferMemory) : CircularBufferMemory :=
  let newBuffer := malloc heap (m.bufferSize * 2 * m.elementSize)
  let m :=
    if m.startOfBuffer ≠ 0 then
      let offset := m.bufferSize - m.startOfBuffer
      let newBuffer := Block.copy newBuffer 0
        (Block.read m.buffer (m.startOfBuffer * m.elementSize) (offset * m.elementSize))
      let newBuffer := Block.copy newBuffer (offset * m.elementSize)
        (Block.read m.buffer 0 ((m.bufferSize - offset) * m.elementSize))
      { m with startOfBuffer := 0, endOfBuffer := m.bufferSize, buffer := newBuffer }
    else
      let newBuffer := Block.copy newBuffer 0 (Block.read m.buffer 0 (m.bufferSize * m.elementSize))
      { m with endOfBuffer := m.bufferSize, buffer := newBuffer }
  { m with bufferSize := m.bufferSize * 2 }

/-- The rest of `Enqueue`. -/
def store (m : CircularBufferMemory) (elementInput : List Byte) : CircularBufferMemory :=
  let endOfBuffer := m.endOfBuffer + 1
  { m with
    buffer := Block.copy m.buffer (m.endOfBuffer * m.elementSize)
      (Block.read elementInput 0 m.elementSize)
    occupation := m.occupation + 1
    endOfBuffer := if endOfBuffer = m.bufferSize then 0 else endOfBuffer }

/-- The return code first. -/
def enqueue (heap : Nat → Nat → Byte) (m : CircularBufferMemory) (elementInput : List Byte) :
    Nat × CircularBufferMemory :=
  if m.isFull then
    if m.maxBufferSize ≠ 0 then (1, m)
    else (0, (m.grow heap).store elementInput)
  else (0, m.store elementInput)

/-- The return code, and what is at the output afterwards. -/
def dequeue (m : CircularBufferMemory) : Nat × List Byte × CircularBufferMemory :=
  if !m.isEmpty then
    let elementOutput := Block.read m.buffer (m.startOfBuffer * m.elementSize) m.elementSize
    let startOfBuffer := m.startOfBuffer + 1
    (0, elementOutput, { m with
      occupation := m.occupation - 1
      startOfBuffer := if startOfBuffer = m.bufferSize then 0 else startOfBuffer })
  else (1, List.replicate m.elementSize 0, m)

def flush (m : CircularBufferMemory) : CircularBufferMemory :=
  { m with occupation := 0, startOfBuffer := m.endOfBuffer }

/-- The octets of a slot. -/
def slot (m : CircularBufferMemory) (k : Nat) : List Byte :=
  Block.read m.buffer (k * m.elementSize) m.elementSize

/-- The elements in the memory, oldest first. -/
def contents (m : CircularBufferMemory) : List (List Byte) :=
  (List.range m.occupation).map fun k => m.slot ((m.startOfBuffer + k) % m.bufferSize)

/-- The memory of a buffer of elements: same cursors, and the octets of each element in
its slot. -/
structure Represents {maxBufferSize : Nat} (m : CircularBufferMemory)
    (b : CircularBuffer (List Byte) maxBufferSize) (octets : Nat) : Prop where
  occupation : m.occupation = b.occupation
  limit : m.maxBufferSize = maxBufferSize
  bufferSize : m.bufferSize = b.bufferSize
  elementSize : m.elementSize = octets
  startOfBuffer : m.startOfBuffer = b.startOfBuffer
  endOfBuffer : m.endOfBuffer = b.endOfBuffer
  allocated : m.buffer.length = b.bufferSize * octets
  live : ∀ k < b.occupation, m.slot ((b.startOfBuffer + k) % b.bufferSize) =
    b.buffer ((b.startOfBuffer + k) % b.bufferSize)

/-- A slot lies in the memory of a buffer, beside the other slots. -/
theorem slot_le {k bufferSize : Nat} (inside : k < bufferSize) (elementSize : Nat) :
    k * elementSize + elementSize ≤ bufferSize * elementSize := by
  rw [← Nat.succ_mul]
  exact Nat.mul_le_mul_right elementSize inside

theorem slots_apart {k other : Nat} (different : k ≠ other) (elementSize : Nat) :
    k * elementSize + elementSize ≤ other * elementSize ∨
      other * elementSize + elementSize ≤ k * elementSize := by
  rcases Nat.lt_or_gt_of_ne different with before | after
  · exact .inl (slot_le before elementSize)
  · exact .inr (slot_le after elementSize)

variable {maxBufferSize elementSize : Nat} {m : CircularBufferMemory}
  {b : CircularBuffer (List Byte) maxBufferSize} {heap : Nat → Nat → Byte}

theorem represents_allocate (heap : Nat → Nat → Byte) (bufferSize : Nat) (some : 0 < elementSize) :
    Represents (allocate heap bufferSize elementSize) (.allocate bufferSize) elementSize := by
  unfold allocate
  rw [if_neg (by omega)]
  have nothing : ∀ k, ¬ k < (CircularBuffer.allocate bufferSize :
      CircularBuffer (List Byte) bufferSize).occupation := fun k => Nat.not_lt_zero k
  split
  · rename_i none
    subst none
    exact ⟨rfl, rfl, rfl, rfl, rfl, rfl, length_malloc _ _, fun k empty => absurd empty (nothing k)⟩
  · rename_i bounded
    refine ⟨rfl, rfl, ?_, rfl, rfl, rfl, ?_, fun k empty => absurd empty (nothing k)⟩
    · exact (if_neg bounded).symm
    · rw [length_malloc]
      simp [CircularBuffer.allocate, bounded]

theorem Represents.store (before : Represents m b elementSize) (free : b.occupation < b.bufferSize)
    {elementInput : List Byte} (size : elementInput.length = elementSize) :
    Represents (m.store elementInput) (b.store elementInput free) elementSize := by
  have inside : b.endOfBuffer < b.bufferSize := by
    rw [b.end_eq]
    exact Nat.mod_lt _ (by omega)
  have whole : Block.read elementInput 0 m.elementSize = elementInput := by
    rw [before.elementSize, ← size]
    exact Block.read_zero elementInput
  have fits : m.endOfBuffer * m.elementSize + elementInput.length ≤ m.buffer.length := by
    rw [before.endOfBuffer, before.elementSize, before.allocated, size]
    exact slot_le inside elementSize
  have slots : ∀ k, (m.store elementInput).slot k =
      if k = b.endOfBuffer then elementInput else m.slot k := by
    intro k
    unfold slot CircularBufferMemory.store
    dsimp only
    rw [whole]
    split
    · rename_i here
      rw [here, ← before.endOfBuffer, Block.read_copy_inside _ _ _ fits _ _ (Nat.le_refl _),
        Nat.sub_self, before.elementSize, ← size, Block.read_zero]
      rw [size, before.elementSize]
    · rename_i elsewhere
      apply Block.read_copy_outside _ _ _ fits
      rw [before.endOfBuffer, before.elementSize, size]
      exact slots_apart elsewhere elementSize
  refine ⟨?_, before.limit, before.bufferSize, before.elementSize, before.startOfBuffer, ?_, ?_,
    fun k near => ?_⟩
  · exact congrArg (· + 1) before.occupation
  · change (if m.endOfBuffer + 1 = m.bufferSize then 0 else m.endOfBuffer + 1) = _
    rw [before.endOfBuffer, before.bufferSize]
    rfl
  · unfold CircularBufferMemory.store
    dsimp only
    rw [whole, Block.length_copy _ _ _ fits]
    exact before.allocated
  · rw [slots]
    change _ = Function.update b.buffer b.endOfBuffer elementInput _
    change k < b.occupation + 1 at near
    change (if (b.startOfBuffer + k) % b.bufferSize = b.endOfBuffer then _ else
      m.slot ((b.startOfBuffer + k) % b.bufferSize)) =
        Function.update b.buffer b.endOfBuffer elementInput ((b.startOfBuffer + k) % b.bufferSize)
    split
    · rename_i here
      rw [here, Function.update_self]
    · rename_i elsewhere
      rw [Function.update_of_ne elsewhere]
      apply before.live
      apply Nat.lt_of_le_of_ne (Nat.le_of_lt_succ near)
      rintro rfl
      exact elsewhere b.end_eq.symm

theorem Represents.contents (before : Represents m b elementSize) : m.contents = b.contents := by
  unfold CircularBufferMemory.contents CircularBuffer.contents
  rw [before.occupation, before.startOfBuffer, before.bufferSize]
  apply List.map_congr_left
  intro k member
  exact before.live k (List.mem_range.mp member)

/-- The two copies that unwrap a buffer make up the whole of it. -/
theorem unwrapped_sizes {startOfBuffer bufferSize : Nat} (start : startOfBuffer < bufferSize)
    (elementSize : Nat) :
    bufferSize - (bufferSize - startOfBuffer) = startOfBuffer ∧
      startOfBuffer * elementSize + (bufferSize - startOfBuffer) * elementSize =
        bufferSize * elementSize := by
  refine ⟨by omega, ?_⟩
  rw [← Nat.add_mul]
  congr 1
  omega

/-- The two copies of the growth branch put the slots in queue order. -/
theorem Represents.slot_grow (before : Represents m b elementSize) {k : Nat}
    (inside : k < b.bufferSize) :
    (m.grow heap).slot k = m.slot ((b.startOfBuffer + k) % b.bufferSize) := by
  have start := b.start_lt
  have size := before.allocated
  unfold slot grow
  dsimp only
  rw [before.startOfBuffer, before.bufferSize, before.elementSize]
  have room : ∀ n ≤ b.bufferSize,
      n * elementSize ≤ (malloc heap (b.bufferSize * 2 * elementSize)).length := by
    intro n small
    rw [length_malloc]
    exact Nat.mul_le_mul_right elementSize (by omega)
  split
  · rename_i wrapped
    obtain ⟨tail, whole⟩ := unwrapped_sizes start elementSize
    have front : (Block.read m.buffer (b.startOfBuffer * elementSize)
        ((b.bufferSize - b.startOfBuffer) * elementSize)).length =
          (b.bufferSize - b.startOfBuffer) * elementSize :=
      Block.length_read _ _ _ (by omega)
    have back : (Block.read m.buffer 0 (b.startOfBuffer * elementSize)).length =
        b.startOfBuffer * elementSize :=
      Block.length_read _ _ _ (by omega)
    have all := room b.bufferSize (Nat.le_refl _)
    have fits : 0 + (Block.read m.buffer (b.startOfBuffer * elementSize)
        ((b.bufferSize - b.startOfBuffer) * elementSize)).length ≤
          (malloc heap (b.bufferSize * 2 * elementSize)).length := by
      omega
    have last := slot_le inside elementSize
    dsimp only
    rw [tail]
    rcases Nat.lt_or_ge k (b.bufferSize - b.startOfBuffer) with unwrapped | around
    · have left := slot_le unwrapped elementSize
      rw [Block.read_copy_outside _ _ _ (by rw [Block.length_copy _ _ _ fits]; omega) _ _
          (.inl left),
        Block.read_copy_inside _ _ _ fits _ _ (Nat.zero_le _) (by omega),
        Nat.sub_zero, Block.read_read _ _ _ _ _ left, ← Nat.add_mul,
        Nat.mod_eq_of_lt (by omega)]
    · have moved : k * elementSize - (b.bufferSize - b.startOfBuffer) * elementSize =
          (k - (b.bufferSize - b.startOfBuffer)) * elementSize :=
        (Nat.sub_mul _ _ _).symm
      have right : (k - (b.bufferSize - b.startOfBuffer)) * elementSize + elementSize ≤
          b.startOfBuffer * elementSize :=
        slot_le (by omega) elementSize
      rw [Block.read_copy_inside _ _ _ (by rw [Block.length_copy _ _ _ fits]; omega) _ _
          (Nat.mul_le_mul_right elementSize around) (by omega),
        moved, Block.read_read _ _ _ _ _ right, Nat.zero_add,
        Nat.mod_eq_sub_mod (by omega), Nat.mod_eq_of_lt (by omega)]
      congr 2
      omega
  · rename_i unwrapped
    have front : (Block.read m.buffer 0 (b.bufferSize * elementSize)).length =
        b.bufferSize * elementSize :=
      Block.length_read _ _ _ (by omega)
    have all := room b.bufferSize (Nat.le_refl _)
    have last := slot_le inside elementSize
    dsimp only
    rw [Block.read_copy_inside _ _ _ (by omega) _ _ (Nat.zero_le _) (by omega), Nat.sub_zero,
      Block.read_read _ _ _ _ _ last, Nat.zero_add, not_not.mp unwrapped, Nat.zero_add,
      Nat.mod_eq_of_lt inside]

theorem Represents.length_grow (before : Represents m b elementSize) :
    (m.grow heap).buffer.length = b.bufferSize * 2 * elementSize := by
  have start := b.start_lt
  have size := before.allocated
  have twice : b.bufferSize * 2 * elementSize =
      b.bufferSize * elementSize + b.bufferSize * elementSize := by
    rw [Nat.mul_comm b.bufferSize 2, Nat.mul_assoc, Nat.two_mul]
  unfold grow
  dsimp only
  rw [before.startOfBuffer, before.bufferSize, before.elementSize]
  split
  · rename_i wrapped
    obtain ⟨tail, whole⟩ := unwrapped_sizes start elementSize
    have first : (Block.copy (malloc heap (b.bufferSize * 2 * elementSize)) 0
        (Block.read m.buffer (b.startOfBuffer * elementSize)
          ((b.bufferSize - b.startOfBuffer) * elementSize))).length =
            b.bufferSize * 2 * elementSize := by
      rw [Block.length_copy, length_malloc]
      rw [Block.length_read _ _ _ (by omega), length_malloc]
      omega
    dsimp only
    rw [tail, Block.length_copy, first]
    rw [Block.length_read _ _ _ (by omega), first]
    omega
  · dsimp only
    rw [Block.length_copy, length_malloc]
    rw [Block.length_read _ _ _ (by omega), length_malloc]
    omega

theorem Represents.grow (before : Represents m b elementSize) (full : b.occupation = b.bufferSize)
    (growable : maxBufferSize = 0) :
    Represents (m.grow heap) (b.grow full growable) elementSize := by
  have fields : (m.grow heap).bufferSize = m.bufferSize * 2 ∧
      (m.grow heap).occupation = m.occupation ∧
      (m.grow heap).maxBufferSize = m.maxBufferSize ∧
      (m.grow heap).elementSize = m.elementSize ∧
      (m.grow heap).startOfBuffer = 0 ∧ (m.grow heap).endOfBuffer = m.bufferSize := by
    unfold CircularBufferMemory.grow
    dsimp only
    split
    · exact ⟨rfl, rfl, rfl, rfl, rfl, rfl⟩
    · rename_i unwrapped
      exact ⟨rfl, rfl, rfl, rfl, not_not.mp unwrapped, rfl⟩
  obtain ⟨slots, occupation, limit, size, start, finish⟩ := fields
  refine ⟨occupation.trans before.occupation, limit.trans before.limit,
    slots.trans (congrArg (· * 2) before.bufferSize), size.trans before.elementSize, start,
    finish.trans before.bufferSize, before.length_grow, fun k near => ?_⟩
  change k < b.occupation at near
  have inside : k < b.bufferSize := full ▸ near
  have straight : (0 + k) % (b.bufferSize * 2) = k := by
    rw [Nat.zero_add, Nat.mod_eq_of_lt (by omega)]
  change (m.grow heap).slot ((0 + k) % (b.bufferSize * 2)) =
    (b.grow full growable).buffer ((0 + k) % (b.bufferSize * 2))
  rw [straight, b.buffer_grow full growable inside, before.slot_grow inside]
  exact before.live k near

theorem Represents.enqueue (before : Represents m b elementSize) {elementInput : List Byte}
    (size : elementInput.length = elementSize) :
    (b.enqueue elementInput = none ∧ m.enqueue heap elementInput = (1, m)) ∨
      ∃ b', b.enqueue elementInput = some b' ∧ (m.enqueue heap elementInput).1 = 0 ∧
        Represents (m.enqueue heap elementInput).2 b' elementSize := by
  unfold CircularBufferMemory.enqueue CircularBuffer.enqueue isFull
  rw [before.occupation, before.bufferSize, before.limit]
  by_cases full : b.occupation = b.bufferSize
  · rw [if_pos (beq_iff_eq.mpr full), dif_pos full]
    by_cases bounded : maxBufferSize ≠ 0
    · rw [if_pos bounded, dif_pos bounded]
      exact .inl ⟨rfl, rfl⟩
    · rw [if_neg bounded, dif_neg bounded]
      exact .inr ⟨_, rfl, rfl, (before.grow full (not_not.mp bounded)).store _ size⟩
  · rw [if_neg (by simpa using full), dif_neg full]
    exact .inr ⟨_, rfl, rfl, before.store _ size⟩

theorem Represents.dequeue (before : Represents m b elementSize) :
    (b.dequeue = none ∧ m.dequeue = (1, List.replicate elementSize 0, m)) ∨
      ∃ x b', b.dequeue = some (x, b') ∧ m.dequeue.1 = 0 ∧ m.dequeue.2.1 = x ∧
        Represents m.dequeue.2.2 b' elementSize := by
  unfold CircularBufferMemory.dequeue CircularBuffer.dequeue isEmpty
  by_cases empty : b.occupation = 0
  · rw [dif_pos empty, before.occupation, empty, before.elementSize]
    exact .inl ⟨rfl, rfl⟩
  · have some : (!m.occupation == 0) = true := by
      rw [before.occupation]
      simpa using empty
    rw [dif_neg empty, if_pos some]
    have oldest := before.live 0 (by omega)
    rw [Nat.add_zero, Nat.mod_eq_of_lt b.start_lt] at oldest
    refine .inr ⟨_, _, rfl, rfl, ?_, ?_, before.limit, before.bufferSize, before.elementSize, ?_,
      before.endOfBuffer, before.allocated, fun k near => ?_⟩
    · rw [← oldest, before.startOfBuffer]
      rfl
    · exact congrArg (· - 1) before.occupation
    · change (if m.startOfBuffer + 1 = m.bufferSize then 0 else m.startOfBuffer + 1) = _
      rw [before.startOfBuffer, before.bufferSize]
      rfl
    · change k < b.occupation - 1 at near
      change m.slot (((if b.startOfBuffer + 1 = b.bufferSize then 0 else b.startOfBuffer + 1) + k) %
        b.bufferSize) = b.buffer (((if b.startOfBuffer + 1 = b.bufferSize then 0
          else b.startOfBuffer + 1) + k) % b.bufferSize)
      rw [advance_mod]
      exact before.live (k + 1) (by omega)

theorem Represents.flush (before : Represents m b elementSize) :
    Represents m.flush b.flush elementSize where
  occupation := rfl
  limit := before.limit
  bufferSize := before.bufferSize
  elementSize := before.elementSize
  startOfBuffer := before.endOfBuffer
  endOfBuffer := before.endOfBuffer
  allocated := before.allocated
  live k near := absurd near (Nat.not_lt_zero k)

end CircularBufferMemory

end Sinuca3.Source
