import Sinuca3.Lib.Machine
import Sinuca3.Source.Utils.CircularBuffer

/-!
# Extents of circular buffers

`utils/circular_buffer.cpp` once more, with the numbers as the `int`s they are and without
the octets: how many of them `malloc` gave, and whether every copy of an `Enqueue` stays
inside. A product of `int`s wraps; `malloc` gives nothing for a negative one, which it is
passed as more than there can be. `extents` is the extent of a `CircularBuffer`.
-/
namespace Sinuca3.Source
open Lib

/-- A number as an `int`. -/
def asInt (number : Int) : Int := number.bmod 4294967296

theorem asInt_of_fits {number : Int} (lower : 0 ≤ number) (upper : number < 2147483648) :
    asInt number = number := by
  unfold asInt
  rw [Int.bmod_def]
  omega

theorem asInt_le (number : Int) : asInt number < 2147483648 := by
  unfold asInt
  rw [Int.bmod_def]
  split <;> omega

theorem asInt_le_self {number : Int} (positive : 0 ≤ number) : asInt number ≤ number := by
  unfold asInt
  rw [Int.bmod_def]
  split <;> omega

structure CircularBufferExtent where
  /-- The octets at `buffer`. -/
  extent : Int := 0
  occupation : Int := 0
  maxBufferSize : Int := 0
  bufferSize : Int := 0
  elementSize : Int := 0
  startOfBuffer : Int := 0
  endOfBuffer : Int := 0

inductive ExtentOp where
  | enqueue | dequeue | flush
  deriving DecidableEq

namespace CircularBufferExtent

/-- What `malloc` gives. -/
def malloc (size : Int) : Int := max size 0

/-- A copy of so many octets to a place of a block. -/
def within (extent place size : Int) : Bool :=
  decide (0 ≤ size) && decide (0 ≤ place) && decide (place + size ≤ extent)

def allocate (bufferSize elementSize : Int) : CircularBufferExtent :=
  if elementSize = 0 then {}
  else if bufferSize = 0 then
    { elementSize
      maxBufferSize := bufferSize
      bufferSize := defaultBufferSize
      extent := malloc (asInt (defaultBufferSize * elementSize)) }
  else
    { elementSize
      maxBufferSize := bufferSize
      bufferSize
      extent := malloc (asInt (bufferSize * elementSize)) }

/-- The growth branch of `Enqueue`, with whether its copies stay inside. -/
def grow (b : CircularBufferExtent) : Bool × CircularBufferExtent :=
  let extent := malloc (asInt (asInt (b.bufferSize * 2) * b.elementSize))
  let offset := b.bufferSize - b.startOfBuffer
  let inside :=
    if b.startOfBuffer ≠ 0 then
      within extent 0 (asInt (offset * b.elementSize)) &&
        within extent (asInt (offset * b.elementSize))
          (asInt ((b.bufferSize - offset) * b.elementSize))
    else within extent 0 (asInt (b.bufferSize * b.elementSize))
  (inside, { b with
    extent
    startOfBuffer := 0
    endOfBuffer := b.bufferSize
    bufferSize := asInt (b.bufferSize * 2) })

/-- The rest of `Enqueue`. -/
def store (b : CircularBufferExtent) : Bool × CircularBufferExtent :=
  let endOfBuffer := asInt (b.endOfBuffer + 1)
  (within b.extent (asInt (b.endOfBuffer * b.elementSize)) b.elementSize, { b with
    occupation := asInt (b.occupation + 1)
    endOfBuffer := if endOfBuffer = b.bufferSize then 0 else endOfBuffer })

def isFull (b : CircularBufferExtent) : Bool := b.occupation == b.bufferSize

def enqueue (b : CircularBufferExtent) : Bool × CircularBufferExtent :=
  if b.isFull then
    if b.maxBufferSize ≠ 0 then (true, b)
    else
      let grown := b.grow
      let stored := grown.2.store
      (grown.1 && stored.1, stored.2)
  else b.store

def dequeue (b : CircularBufferExtent) : CircularBufferExtent :=
  if b.occupation = 0 then b
  else
    let startOfBuffer := asInt (b.startOfBuffer + 1)
    { b with
      occupation := b.occupation - 1
      startOfBuffer := if startOfBuffer = b.bufferSize then 0 else startOfBuffer }

def flush (b : CircularBufferExtent) : CircularBufferExtent :=
  { b with
    occupation := 0
    startOfBuffer := b.endOfBuffer }

/-- An operation; an `Enqueue` reports whether its copies stay inside. -/
def step (b : CircularBufferExtent) : ExtentOp → CircularBufferExtent × List Bool
  | .enqueue => (b.enqueue.2, [b.enqueue.1])
  | .dequeue => (b.dequeue, [])
  | .flush => (b.flush, [])

/-- Cursors inside a block that has room for every element. -/
structure Inside (b : CircularBufferExtent) : Prop where
  sized : 0 < b.elementSize
  occupation : 0 ≤ b.occupation ∧ b.occupation ≤ b.bufferSize
  start : 0 ≤ b.startOfBuffer ∧ b.startOfBuffer < b.bufferSize
  finish : 0 ≤ b.endOfBuffer ∧ b.endOfBuffer < b.bufferSize
  extent : b.extent = b.bufferSize * b.elementSize
  fits : b.bufferSize * b.elementSize < 2147483648

/-- What a growth makes of the buffer still fits. -/
def GrowthFits (b : CircularBufferExtent) (op : ExtentOp) : Prop :=
  op = .enqueue → b.isFull = true → b.maxBufferSize = 0 →
    b.bufferSize * 2 * b.elementSize < 2147483648

instance (b : CircularBufferExtent) (op : ExtentOp) : Decidable (GrowthFits b op) :=
  inferInstanceAs (Decidable (_ → _ → _ → _))

/-- A size for which elements of so many octets get the block that they need. -/
def Fits (bufferSize elementSize : Int) : Prop :=
  0 ≤ bufferSize ∧ (if bufferSize = 0 then 8 else bufferSize) * elementSize < 2147483648

instance (bufferSize elementSize : Int) : Decidable (Fits bufferSize elementSize) :=
  inferInstanceAs (Decidable (_ ∧ _))

theorem slot_inside {k bufferSize elementSize : Int} (sized : 0 < elementSize) (lower : 0 ≤ k)
    (upper : k < bufferSize) :
    0 ≤ k * elementSize ∧ k * elementSize + elementSize ≤ bufferSize * elementSize := by
  refine ⟨Int.mul_nonneg lower (by omega), ?_⟩
  have next := Int.mul_le_mul_of_nonneg_right (Int.add_one_le_of_lt upper) (Int.le_of_lt sized)
  rwa [Int.add_mul, Int.one_mul] at next

/-- A buffer has no more elements than octets. -/
theorem count_le {count elementSize : Int} (sized : 0 < elementSize) (some : 0 ≤ count) :
    count ≤ count * elementSize := by
  have grows := Int.mul_le_mul_of_nonneg_left (Int.add_one_le_of_lt sized) some
  omega

theorem within_iff (extent place size : Int) :
    within extent place size = true ↔ 0 ≤ size ∧ 0 ≤ place ∧ place + size ≤ extent := by
  unfold within
  rw [Bool.and_eq_true, Bool.and_eq_true, decide_eq_true_iff, decide_eq_true_iff,
    decide_eq_true_iff, and_assoc]

variable {b : CircularBufferExtent}

theorem Inside.store (before : b.Inside) (free : b.occupation < b.bufferSize) :
    b.store.1 = true ∧ b.store.2.Inside := by
  obtain ⟨sized, occupation, start, finish, extent, fits⟩ := before
  obtain ⟨place, slot⟩ := slot_inside sized finish.1 finish.2
  have small := count_le sized (Int.le_trans start.1 (Int.le_of_lt start.2))
  have here : asInt (b.endOfBuffer * b.elementSize) = b.endOfBuffer * b.elementSize :=
    asInt_of_fits place (by omega)
  have next : asInt (b.endOfBuffer + 1) = b.endOfBuffer + 1 :=
    asInt_of_fits (by omega) (by omega)
  have more : asInt (b.occupation + 1) = b.occupation + 1 :=
    asInt_of_fits (by omega) (by omega)
  unfold CircularBufferExtent.store
  dsimp only
  rw [here, next, more]
  refine ⟨(within_iff _ _ _).mpr ⟨Int.le_of_lt sized, place, by omega⟩, sized, ?_, start, ?_,
    extent, fits⟩
  · dsimp only
    omega
  · dsimp only
    split <;> omega

theorem Inside.grow (before : b.Inside) (room : b.bufferSize * 2 * b.elementSize < 2147483648) :
    b.grow.1 = true ∧ b.grow.2.Inside ∧ b.occupation < b.grow.2.bufferSize := by
  obtain ⟨sized, occupation, start, finish, extent, fits⟩ := before
  have some : 0 ≤ b.bufferSize * 2 := by omega
  have small := count_le sized some
  have twice : asInt (b.bufferSize * 2) = b.bufferSize * 2 := asInt_of_fits some (by omega)
  have whole : asInt (b.bufferSize * 2 * b.elementSize) = b.bufferSize * 2 * b.elementSize :=
    asInt_of_fits (by omega) room
  have gives : malloc (b.bufferSize * 2 * b.elementSize) = b.bufferSize * 2 * b.elementSize :=
    max_eq_left (by omega)
  have double : b.bufferSize * 2 * b.elementSize =
      b.bufferSize * b.elementSize + b.bufferSize * b.elementSize := by
    rw [Int.mul_comm b.bufferSize 2, Int.mul_assoc, Int.two_mul]
  have old := Int.mul_nonneg (Int.le_trans start.1 (Int.le_of_lt start.2)) (Int.le_of_lt sized)
  -- the two copies of a wrapped buffer
  have front := Int.mul_nonneg (show 0 ≤ b.bufferSize - b.startOfBuffer by omega)
    (Int.le_of_lt sized)
  have back := Int.mul_nonneg start.1 (Int.le_of_lt sized)
  have parts : (b.bufferSize - b.startOfBuffer) * b.elementSize +
      b.startOfBuffer * b.elementSize = b.bufferSize * b.elementSize := by
    rw [← Int.add_mul, Int.sub_add_cancel]
  have rest : b.bufferSize - (b.bufferSize - b.startOfBuffer) = b.startOfBuffer := by omega
  unfold CircularBufferExtent.grow
  dsimp only
  rw [twice, whole, gives, rest, asInt_of_fits front (by omega), asInt_of_fits back (by omega),
    asInt_of_fits old fits]
  refine ⟨?_, ⟨sized, ?_, ?_, ?_, rfl, room⟩, ?_⟩
  · split
    · rw [Bool.and_eq_true, within_iff, within_iff]
      omega
    · rw [within_iff]
      omega
  · dsimp only
    omega
  · dsimp only
    omega
  · dsimp only
    omega
  · omega

theorem Inside.enqueue (before : b.Inside) (room : GrowthFits b .enqueue) :
    b.enqueue.1 = true ∧ b.enqueue.2.Inside := by
  unfold CircularBufferExtent.enqueue
  split
  · rename_i full
    split
    · exact ⟨rfl, before⟩
    · rename_i growable
      obtain ⟨copies, after, free⟩ := before.grow (room rfl full (not_not.mp growable))
      obtain ⟨written, stored⟩ := after.store free
      exact ⟨Bool.and_eq_true_iff.mpr ⟨copies, written⟩, stored⟩
  · rename_i free
    have differs : b.occupation ≠ b.bufferSize := by
      intro full
      exact free (beq_iff_eq.mpr full)
    exact before.store (lt_of_le_of_ne before.occupation.2 differs)

theorem Inside.dequeue (before : b.Inside) : b.dequeue.Inside := by
  obtain ⟨sized, occupation, start, finish, extent, fits⟩ := before
  have small := count_le sized (Int.le_trans start.1 (Int.le_of_lt start.2))
  have next : asInt (b.startOfBuffer + 1) = b.startOfBuffer + 1 :=
    asInt_of_fits (by omega) (by omega)
  unfold CircularBufferExtent.dequeue
  dsimp only
  rw [next]
  split
  · exact ⟨sized, occupation, start, finish, extent, fits⟩
  · refine ⟨sized, ?_, ?_, finish, extent, fits⟩
    · dsimp only
      omega
    · dsimp only
      split <;> omega

theorem Inside.flush (before : b.Inside) : b.flush.Inside where
  sized := before.sized
  occupation := ⟨Int.le_refl 0, Int.le_trans before.start.1 (Int.le_of_lt before.start.2)⟩
  start := before.finish
  finish := before.finish
  extent := before.extent
  fits := before.fits

theorem Inside.step (before : b.Inside) (op : ExtentOp) (room : GrowthFits b op) :
    (∀ inside ∈ (b.step op).2, inside = true) ∧ (b.step op).1.Inside := by
  cases op with
  | enqueue =>
    obtain ⟨inside, after⟩ := before.enqueue room
    exact ⟨fun report member => (List.mem_singleton.mp member).trans inside, after⟩
  | dequeue => exact ⟨fun _ member => absurd member List.not_mem_nil, before.dequeue⟩
  | flush => exact ⟨fun _ member => absurd member List.not_mem_nil, before.flush⟩

/-- Every run whose growths fit. -/
theorem Inside.run (before : b.Inside) (ops : List ExtentOp)
    (room : Machine.Meets CircularBufferExtent.step GrowthFits b ops) :
    ∀ inside ∈ (Machine.run CircularBufferExtent.step b ops).2, inside = true := by
  have both := Machine.run_induction_of_meets CircularBufferExtent.step GrowthFits
    (P := fun b _ log => (∀ inside ∈ log, inside = true) ∧ b.Inside)
    ⟨fun _ member => absurd member List.not_mem_nil, before⟩ ?_ ops room
  · exact both.1
  · rintro b _ log op ⟨earlier, now⟩ fits
    obtain ⟨new, after⟩ := now.step op fits
    exact ⟨fun inside member => (List.mem_append.mp member).elim (earlier inside) (new inside),
      after⟩

theorem maxBufferSize_step (b : CircularBufferExtent) (op : ExtentOp) :
    (b.step op).1.maxBufferSize = b.maxBufferSize := by
  cases op with
  | enqueue =>
    unfold step CircularBufferExtent.enqueue
    dsimp only
    split
    · split
      · rfl
      · rfl
    · rfl
  | dequeue =>
    unfold step CircularBufferExtent.dequeue
    dsimp only
    split
    · rfl
    · rfl
  | flush => rfl

/-- A buffer of a limited size does not grow. -/
theorem growthFits_of_limited (limited : b.maxBufferSize ≠ 0) (ops : List ExtentOp) :
    Machine.Meets CircularBufferExtent.step GrowthFits b ops := by
  refine Machine.meets_of_invariant _ _ (fun b => b.maxBufferSize ≠ 0) ?_ ?_ b limited ops
  · intro b op limited
    rwa [maxBufferSize_step]
  · exact fun b op limited _ _ growable => absurd growable limited

/-- An `Enqueue` puts at most one element in, of the same size. -/
theorem Inside.enqueue_occupation (before : b.Inside) :
    b.enqueue.2.occupation ≤ b.occupation + 1 ∧ b.enqueue.2.elementSize = b.elementSize := by
  have more : asInt (b.occupation + 1) ≤ b.occupation + 1 :=
    asInt_le_self (by have := before.occupation.1; omega)
  unfold CircularBufferExtent.enqueue
  split
  · split
    · exact ⟨Int.le_add_one (Int.le_refl b.occupation), rfl⟩
    · exact ⟨more, rfl⟩
  · exact ⟨more, rfl⟩

/-- Elements put in one after the other make a buffer grow to less than twice as many. -/
theorem Inside.growthFits_of_count (before : b.Inside) (count : Nat)
    (few : (b.occupation + count) * 2 * b.elementSize < 2147483648) :
    Machine.Meets CircularBufferExtent.step GrowthFits b (List.replicate count .enqueue) := by
  induction count generalizing b with
  | zero => trivial
  | succ count ih =>
    have positive := before.sized
    have here : GrowthFits b .enqueue := by
      intro _ full _
      rw [← show b.occupation = b.bufferSize from beq_iff_eq.mp full]
      refine Int.lt_of_le_of_lt (Int.mul_le_mul_of_nonneg_right ?_ (Int.le_of_lt positive)) few
      omega
    obtain ⟨occupation, size⟩ := before.enqueue_occupation
    refine ⟨here, ih (before.enqueue here).2 ?_⟩
    change (b.enqueue.2.occupation + count) * 2 * b.enqueue.2.elementSize < 2147483648
    rw [size]
    refine Int.lt_of_le_of_lt (Int.mul_le_mul_of_nonneg_right ?_ (Int.le_of_lt positive)) few
    omega

section Allocated

variable {bufferSize elementSize : Int} (sized : 0 < elementSize)
include sized

theorem allocate_bounded (bounded : bufferSize ≠ 0) :
    allocate bufferSize elementSize =
      { elementSize
        maxBufferSize := bufferSize
        bufferSize
        extent := malloc (asInt (bufferSize * elementSize)) } := by
  unfold allocate
  rw [if_neg (by omega), if_neg bounded]

theorem inside_allocate (sizeFits : Fits bufferSize elementSize) :
    (allocate bufferSize elementSize).Inside := by
  obtain ⟨lower, fits⟩ := sizeFits
  have gives : ∀ {size : Int}, 0 ≤ size → size * elementSize < 2147483648 →
      malloc (asInt (size * elementSize)) = size * elementSize := by
    intro size some small
    have octets := Int.mul_nonneg some (Int.le_of_lt sized)
    rw [asInt_of_fits octets small]
    exact max_eq_left octets
  unfold allocate
  rw [if_neg (by omega)]
  split
  · rename_i none
    rw [if_pos none] at fits
    have eight : (defaultBufferSize : Int) = 8 := rfl
    have some : (0 : Int) ≤ 8 := by decide
    have positive : (0 : Int) < 8 := by decide
    rw [eight]
    exact ⟨sized, ⟨Int.le_refl 0, some⟩, ⟨Int.le_refl 0, positive⟩, ⟨Int.le_refl 0, positive⟩,
      gives some fits, fits⟩
  · rename_i some
    rw [if_neg some] at fits
    have positive : 0 < bufferSize := by omega
    exact ⟨sized, ⟨Int.le_refl 0, lower⟩, ⟨Int.le_refl 0, positive⟩, ⟨Int.le_refl 0, positive⟩,
      gives lower fits, fits⟩

/-- An `Enqueue` into a buffer that a run of them has not filled. -/
theorem enqueue_filling (bounded : bufferSize ≠ 0) {count : Nat}
    (free : (count : Int) ≠ bufferSize) :
    let filling := { allocate bufferSize elementSize with
      occupation := count
      endOfBuffer := count }
    filling.enqueue = filling.store := by
  intro filling
  have size : filling.bufferSize = bufferSize := by
    rw [show filling.bufferSize = (allocate bufferSize elementSize).bufferSize from rfl,
      allocate_bounded sized bounded]
  have room : ¬ filling.isFull = true := by
    intro full
    exact free ((beq_iff_eq.mp full).trans size)
  unfold CircularBufferExtent.enqueue
  rw [if_neg room]

/-- As many elements as there is room for, one after the other. -/
theorem run_filling (bounded : bufferSize ≠ 0) (count : Nat)
    (room : count * elementSize ≤ malloc (asInt (bufferSize * elementSize)))
    (free : bufferSize < 0 ∨ count < bufferSize) :
    (Machine.run step (allocate bufferSize elementSize) (List.replicate count .enqueue)).1 =
      { allocate bufferSize elementSize with
        occupation := count
        endOfBuffer := count } := by
  induction count with
  | zero =>
    rw [allocate_bounded sized bounded]
    rfl
  | succ count ih =>
    have limit := asInt_le (bufferSize * elementSize)
    have octets : malloc (asInt (bufferSize * elementSize)) < 2147483648 :=
      max_lt limit (by decide)
    have more : ((count + 1 : Nat) : Int) * elementSize = count * elementSize + elementSize := by
      rw [Int.natCast_succ, Int.add_mul, Int.one_mul]
    have few := count_le sized (Int.natCast_nonneg (count + 1))
    have next : asInt ((count : Int) + 1) = (count : Int) + 1 :=
      asInt_of_fits (by omega) (by omega)
    rw [List.replicate_succ', Machine.run_concat, ih (by omega) (by omega)]
    dsimp only [step]
    rw [enqueue_filling sized bounded (by omega), CircularBufferExtent.store]
    dsimp only
    rw [next, allocate_bounded sized bounded]
    dsimp only
    rw [if_neg (by omega), Int.natCast_succ]

/-- A size that is negative, or whose octets do not fit, ends in a write outside, for which
it takes no more than enough `Enqueue`s. -/
theorem overrun (bounded : bufferSize ≠ 0)
    (wide : bufferSize < 0 ∨ 2147483648 ≤ bufferSize * elementSize) :
    ∃ count, false ∈ (Machine.run step (allocate bufferSize elementSize)
      (List.replicate count .enqueue)).2 := by
  have limit := asInt_le (bufferSize * elementSize)
  have octets : malloc (asInt (bufferSize * elementSize)) < 2147483648 := max_lt limit (by decide)
  have some : 0 ≤ malloc (asInt (bufferSize * elementSize)) := le_max_right _ _
  generalize extent : malloc (asInt (bufferSize * elementSize)) = room at octets some
  -- the element behind the last that fits
  obtain ⟨count, quotient⟩ := Int.eq_ofNat_of_zero_le (Int.ediv_nonneg some (Int.le_of_lt sized))
  have below : (count : Int) * elementSize ≤ room := by
    rw [← quotient]
    exact Int.ediv_mul_le _ (Int.ne_of_gt sized)
  have above : room < (count : Int) * elementSize + elementSize := by
    have next := Int.lt_ediv_add_one_mul_self room sized
    rwa [quotient, Int.add_mul, Int.one_mul] at next
  have free : bufferSize < 0 ∨ (count : Int) < bufferSize := by
    refine wide.imp_right fun wide => ?_
    by_contra behind
    have most := Int.mul_le_mul_of_nonneg_right (Int.not_lt.mp behind) (Int.le_of_lt sized)
    omega
  have filling := run_filling sized bounded count (extent.symm ▸ below) free
  refine ⟨count + 1, ?_⟩
  rw [List.replicate_succ', Machine.run_concat, filling]
  apply List.mem_append_right
  dsimp only [step]
  rw [enqueue_filling sized bounded (by omega), CircularBufferExtent.store]
  dsimp only
  have place : asInt ((count : Int) * elementSize) = count * elementSize :=
    asInt_of_fits (Int.mul_nonneg (Int.natCast_nonneg _) (Int.le_of_lt sized)) (by omega)
  have outside : within room (count * elementSize) elementSize = false := by
    rw [← Bool.not_eq_true, within_iff]
    omega
  rw [allocate_bounded sized bounded]
  dsimp only
  rw [place, extent, outside]
  exact List.mem_singleton_self _

/-- A buffer of a limited size: no `Enqueue` writes outside when its octets fit. -/
theorem limited_inside_iff (bounded : bufferSize ≠ 0) :
    (∀ ops, ∀ inside ∈ (Machine.run step (allocate bufferSize elementSize) ops).2,
      inside = true) ↔ 0 < bufferSize ∧ bufferSize * elementSize < 2147483648 := by
  constructor
  · intro always
    by_contra bad
    obtain ⟨_, outside⟩ := overrun sized bounded (by omega)
    cases always _ false outside
  · rintro ⟨positive, fits⟩ ops
    have start := inside_allocate sized ⟨Int.le_of_lt positive, by rwa [if_neg bounded]⟩
    refine start.run ops (growthFits_of_limited ?_ ops)
    rwa [allocate_bounded sized bounded]

end Allocated

end CircularBufferExtent

namespace CircularBuffer

variable {α : Type} {maxBufferSize : Nat} (b : CircularBuffer α maxBufferSize) {elementSize : Nat}

/-- The extent of a buffer of elements of so many octets. -/
def extents (elementSize : Nat) : CircularBufferExtent where
  extent := b.bufferSize * elementSize
  occupation := b.occupation
  maxBufferSize := maxBufferSize
  bufferSize := b.bufferSize
  elementSize := elementSize
  startOfBuffer := b.startOfBuffer
  endOfBuffer := b.endOfBuffer

/-- A cursor as an `int` goes round as it does as a number. -/
theorem asInt_advance {cursor size : Nat} (inside : cursor < size) (small : size < 2147483648) :
    (if asInt (cursor + 1) = size then 0 else asInt (cursor + 1)) =
      ((if cursor + 1 = size then 0 else cursor + 1 : Nat) : Int) := by
  rw [asInt_of_fits (by omega) (by omega)]
  split
  · rw [if_pos (by omega)]
    rfl
  · rw [if_neg (by omega), Int.natCast_succ]

theorem extents_allocate [Inhabited α] {bufferSize : Nat} (sized : 0 < elementSize)
    (fits : CircularBufferExtent.Fits bufferSize elementSize) :
    CircularBufferExtent.allocate bufferSize elementSize =
      (allocate bufferSize : CircularBuffer α bufferSize).extents elementSize := by
  have octets := (CircularBufferExtent.inside_allocate (by omega) fits).extent
  unfold CircularBufferExtent.allocate at octets ⊢
  unfold allocate extents
  rw [if_neg (by omega)] at octets ⊢
  by_cases none : bufferSize = 0
  · rw [if_pos (by omega)] at octets ⊢
    dsimp only at octets ⊢
    rw [octets, if_pos none]
    rfl
  · rw [if_neg (by omega)] at octets ⊢
    dsimp only at octets ⊢
    rw [octets, if_neg none]
    rfl

theorem extents_grow (sized : 0 < elementSize) (full : b.occupation = b.bufferSize)
    (growable : maxBufferSize = 0) (room : b.bufferSize * 2 * elementSize < 2147483648) :
    (b.extents elementSize).grow.2 = (b.grow full growable).extents elementSize := by
  have small : b.bufferSize * 2 < 2147483648 :=
    Nat.lt_of_le_of_lt (Nat.le_mul_of_pos_right _ sized) room
  have twice : asInt (b.bufferSize * 2) = (b.bufferSize * 2 : Nat) :=
    asInt_of_fits (by omega) (by omega)
  have octets : ((b.bufferSize * 2 : Nat) : Int) * elementSize =
      (b.bufferSize * 2 * elementSize : Nat) := (Int.natCast_mul _ _).symm
  have gives : CircularBufferExtent.malloc (asInt ((b.bufferSize * 2 : Nat) * elementSize)) =
      (b.bufferSize * 2 : Nat) * elementSize := by
    rw [octets, asInt_of_fits (by omega) (by omega)]
    exact max_eq_left (by omega)
  unfold extents grow CircularBufferExtent.grow
  dsimp only
  rw [twice, gives]
  rfl

section Fits

variable (sized : 0 < elementSize) (fits : b.bufferSize * elementSize < 2147483648)
include sized fits

theorem bufferSize_small : b.bufferSize < 2147483648 :=
  Nat.lt_of_le_of_lt (Nat.le_mul_of_pos_right _ sized) fits

theorem extents_store (element : α) (free : b.occupation < b.bufferSize) :
    (b.extents elementSize).store.2 = (b.store element free).extents elementSize := by
  have small := b.bufferSize_small sized fits
  have finish : b.endOfBuffer < b.bufferSize := by
    rw [b.end_eq]
    exact Nat.mod_lt _ (by omega)
  have more : asInt (b.occupation + 1) = (b.occupation + 1 : Nat) :=
    asInt_of_fits (by omega) (by omega)
  unfold extents store CircularBufferExtent.store
  dsimp only
  rw [more, asInt_advance finish small]

/-- As long as a growth fits, the extent moves as the buffer does. -/
theorem extents_enqueue (element : α)
    (room : (b.extents elementSize).GrowthFits .enqueue) :
    (b.extents elementSize).enqueue.2 = ((b.enqueue element).getD b).extents elementSize := by
  have same : ((b.occupation : Int) == b.bufferSize) = true ↔ b.occupation = b.bufferSize := by
    rw [beq_iff_eq]
    exact Int.natCast_inj
  unfold CircularBufferExtent.enqueue enqueue
  split
  · rename_i full
    have whole := same.mp full
    rw [dif_pos whole]
    split
    · rename_i bounded
      rw [dif_pos fun none => bounded (Int.natCast_eq_zero.mpr none)]
      rfl
    · rename_i limit
      have growable : maxBufferSize = 0 := Int.natCast_eq_zero.mp (not_not.mp limit)
      have grown : b.bufferSize * 2 * elementSize < 2147483648 := by
        have octets : (b.bufferSize : Int) * 2 * elementSize < 2147483648 :=
          room rfl full (not_not.mp limit)
        exact_mod_cast octets
      rw [dif_neg (not_not.mpr growable)]
      dsimp only
      rw [b.extents_grow sized whole growable grown]
      exact (b.grow whole growable).extents_store sized grown element _
  · rename_i free
    rw [dif_neg (fun full => free (same.mpr full))]
    exact b.extents_store sized fits element _

theorem extents_dequeue :
    (b.extents elementSize).dequeue = ((b.dequeue.map Prod.snd).getD b).extents elementSize := by
  have small := b.bufferSize_small sized fits
  unfold CircularBufferExtent.dequeue dequeue
  by_cases empty : b.occupation = 0
  · have none : (b.extents elementSize).occupation = 0 := Int.natCast_eq_zero.mpr empty
    rw [dif_pos empty, if_pos none]
    rfl
  · have some : (b.extents elementSize).occupation ≠ 0 :=
      fun none => empty (Int.natCast_eq_zero.mp none)
    rw [dif_neg empty, if_neg some]
    have less : (b.occupation : Int) - 1 = (b.occupation - 1 : Nat) := by omega
    unfold extents release
    dsimp only
    rw [asInt_advance b.start_lt small, less]
    rfl

end Fits

end CircularBuffer
end Sinuca3.Source
