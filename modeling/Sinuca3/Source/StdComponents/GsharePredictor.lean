import Sinuca3.Source.Engine.DefaultPackets
import Sinuca3.Source.Engine.Serving
import Sinuca3.Source.Utils.BimodalCounter
import Sinuca3.Source.Utils.CircularBufferExtent

/-!
# Gshare predictor

`predictors/gshare_predictor.cpp`. The table is indexed by the history of branches and
the address of an instruction; the indices of queries wait in a queue for the updates.
-/
namespace Sinuca3.Source
open Lib

structure GsharePredictor where
  entries : List BimodalCounter
  indexQueueSize : Nat
  indexQueue : CircularBuffer (BitVec 64) indexQueueSize
  globalBranchHistReg : BitVec 64 := 0
  numberOfEntries : Nat
  numberOfPredictions : Nat := 0
  numberOfWrongPredictions : Nat := 0
  currentIndex : BitVec 64 := 0
  indexBitsSize : Nat := 0
  wasPredictedToBeTaken : Bool := false
  wasBranchTaken : Bool := false
  /-- The connection to `sendTo`, if one is configured. -/
  sendTo : Option PredictorConnection := none

inductive GshareEvent where
  /-- A query reads the entry at an index, which the queue takes or not. -/
  | queried (history address index : BitVec 64) (queued : Bool)
  /-- An update trains the entry at an index, or finds the queue empty. -/
  | updated (index : Option (BitVec 64))
  deriving DecidableEq

namespace GsharePredictor

/-- `Configure`, once the parameters are read and have the right types. The size of the
queue is cut to an `int`. Where that comes out negative the code has a queue without a
block, which a `CircularBuffer` cannot be: `queueOp` is for what is written where. -/
def configure (numberOfEntries : Int) (indexQueueSize : Option Int) (sendTo : Bool) :
    Except (String × String) GsharePredictor :=
  if numberOfEntries ≤ 0 then .error ("numberOfEntries", "is not > 0.")
  else if indexQueueSize.getD 1 ≤ 0 then .error ("indexQueueSize", "is not > 0.")
  else
    let limit := (BitVec.ofInt 32 (indexQueueSize.getD 1)).toInt.toNat
    .ok {
      entries := List.replicate numberOfEntries.toNat {}
      indexQueueSize := limit
      indexQueue := .allocate limit
      numberOfEntries := numberOfEntries.toNat
      sendTo := if sendTo then some (.connect 0) else none }

/-- `Configure` leaves the number of index bits at zero. -/
theorem configure_eq {numberOfEntries : Int} {indexQueueSize : Option Int} {sendTo : Bool}
    {g : GsharePredictor}
    (configured : configure numberOfEntries indexQueueSize sendTo = .ok g) :
    ∃ limit connection, g = {
      entries := List.replicate numberOfEntries.toNat {}
      indexQueueSize := limit
      indexQueue := .allocate limit
      numberOfEntries := numberOfEntries.toNat
      sendTo := connection } := by
  unfold configure at configured
  split at configured
  · cases configured
  split at configured
  · cases configured
  cases configured
  exact ⟨_, _, rfl⟩

/-- Nothing calls it. -/
def roundNumberOfEntries (g : GsharePredictor) (requestedSize : Nat) : Option GsharePredictor :=
  let bits := requestedSize.log2
  if bits = 0 then none
  else some { g with numberOfEntries := 1 <<< bits, indexBitsSize := bits }

def preparePacket (g : GsharePredictor) (pkt : PredictorPacket) : PredictorPacket :=
  { pkt with type := if g.wasPredictedToBeTaken then .responseTake else .responseDontTake }

/-- Whether there is no room, and then nothing changes. -/
def enqueueIndex (g : GsharePredictor) : Bool × GsharePredictor :=
  match g.indexQueue.enqueue g.currentIndex with
  | none => (true, g)
  | some indexQueue => (false, { g with indexQueue })

/-- Whether there is none, and then the index is cleared. -/
def dequeueIndex (g : GsharePredictor) : Bool × GsharePredictor :=
  match g.indexQueue.dequeue with
  | none => (true, { g with currentIndex := 0 })
  | some (currentIndex, indexQueue) => (false, { g with currentIndex, indexQueue })

def entry (g : GsharePredictor) : BimodalCounter := (g.entries[g.currentIndex.toNat]?).getD {}

def updateEntry (g : GsharePredictor) : GsharePredictor :=
  { g with
    numberOfWrongPredictions :=
      if g.entry.getPrediction ≠ g.wasBranchTaken then g.numberOfWrongPredictions + 1
      else g.numberOfWrongPredictions
    entries := g.entries.modify g.currentIndex.toNat (·.updatePrediction g.wasBranchTaken) }

def updateGlobBranchHistReg (g : GsharePredictor) : GsharePredictor :=
  let shifted := g.globalBranchHistReg <<< 1
  { g with globalBranchHistReg := if g.wasBranchTaken then shifted ||| 1 else shifted }

def update (g : GsharePredictor) : GsharePredictor :=
  let dequeued := g.dequeueIndex
  if dequeued.1 then dequeued.2 else dequeued.2.updateEntry.updateGlobBranchHistReg

def queryEntry (g : GsharePredictor) : GsharePredictor :=
  { g with
    numberOfPredictions := g.numberOfPredictions + 1
    wasPredictedToBeTaken := g.entry.getPrediction }

/-- The mask is computed as an `int`. -/
def calculateIndex (g : GsharePredictor) (addr : BitVec 64) : GsharePredictor :=
  let mask := ((1#32 <<< g.indexBitsSize) - 1#32).signExtend 64
  { g with currentIndex := (g.globalBranchHistReg ^^^ addr) &&& mask }

def query (g : GsharePredictor) (pkt : PredictorPacket) (addr : BitVec 64) :
    GsharePredictor × PredictorPacket :=
  let asked := (g.calculateIndex addr).queryEntry
  (asked.enqueueIndex.2, asked.preparePacket pkt)

/-- The body of the loop of `Clock`. -/
def respond (g : GsharePredictor) (packet : PredictorPacket) :
    GsharePredictor × Option PredictorPacket :=
  match packet.type with
  | .requestQuery =>
    let asked := g.query packet packet.instruction.staticInfo.instAddress
    match asked.1.sendTo with
    | none => (asked.1, some asked.2)
    | some c => ({ asked.1 with sendTo := some ((c.sendRequest asked.2).getD c) }, none)
  | .requestDirectionUpdate => ({ g with wasBranchTaken := packet.taken }.update, none)
  | _ => (g, none)

def clock {n : Nat} : ComponentClock GsharePredictor n PredictorPacket PredictorPacket :=
  clockAll respond

/-- What handling a packet does to the table and the queue. -/
def events (g : GsharePredictor) (packet : PredictorPacket) : List GshareEvent :=
  let addr := packet.instruction.staticInfo.instAddress
  match packet.type with
  | .requestQuery =>
    let asked := (g.calculateIndex addr).queryEntry
    [.queried g.globalBranchHistReg addr asked.currentIndex !asked.enqueueIndex.1]
  | .requestDirectionUpdate =>
    [.updated (if g.dequeueIndex.1 then none else some g.dequeueIndex.2.currentIndex)]
  | _ => []

def step (g : GsharePredictor) (packet : PredictorPacket) : GsharePredictor × List GshareEvent :=
  ((g.respond packet).1, g.events packet)

theorem step_component (g : GsharePredictor) (packets : List PredictorPacket) :
    (Machine.run step g packets).1 = afterRequests respond g packets := by
  induction packets generalizing g with
  | nil => rfl
  | cons packet packets ih =>
    rw [Machine.run_cons, afterRequests_cons]
    exact ih _

/-- Whatever the clients do over any number of cycles, the predictor comes to what the
requests it read make of it, one after the other. -/
theorem clock_cycles {n : Nat} (g : GsharePredictor)
    (connections : Connections n PredictorPacket PredictorPacket)
    (cycles : List (ClientCycle n PredictorPacket)) :
    (Machine.run clock.cycle (g, connections) cycles).1.1 =
      (Machine.run step g
        (ComponentLog.handled (Machine.run clock.cycle (g, connections) cycles).2)).1 := by
  rw [step_component]
  exact Serves.cycles respond (clockAll_serves respond) (g, connections) cycles

/-- What handling a packet does to the queue of indices, of eight octets each. -/
def queueOp (packet : PredictorPacket) : Option ExtentOp :=
  match packet.type with
  | .requestQuery => some .enqueue
  | .requestDirectionUpdate => some .dequeue
  | _ => none

/-- The indices that wait for updates. -/
def pending (g : GsharePredictor) : List (BitVec 64) := g.indexQueue.contents

/-- The table and the mask stay as `Configure` leaves them. -/
theorem step_sizes (g : GsharePredictor) (packet : PredictorPacket) :
    (g.step packet).1.entries.length = g.entries.length ∧
      (g.step packet).1.indexBitsSize = g.indexBitsSize := by
  unfold step respond
  dsimp only
  split
  · unfold query enqueueIndex
    dsimp only
    split <;> split <;> exact ⟨rfl, rfl⟩
  · unfold update dequeueIndex
    dsimp only
    split <;> simp [updateGlobBranchHistReg, updateEntry]
  · exact ⟨rfl, rfl⟩

theorem enqueueIndex_eq (g : GsharePredictor) :
    (g.enqueueIndex.1 = true ∧ g.enqueueIndex.2.pending = g.pending) ∨
      (g.enqueueIndex.1 = false ∧ g.enqueueIndex.2.pending = g.pending ++ [g.currentIndex]) := by
  unfold pending
  rcases g.indexQueue.enqueue_eq g.currentIndex with ⟨refused, _⟩ | ⟨b, stored, contents, _⟩
  · have full : g.enqueueIndex = (true, g) := by
      unfold enqueueIndex
      rw [refused]
    rw [full]
    exact .inl ⟨rfl, rfl⟩
  · have enqueued : g.enqueueIndex = (false, { g with indexQueue := b }) := by
      unfold enqueueIndex
      rw [stored]
    rw [enqueued]
    exact .inr ⟨rfl, contents⟩

theorem dequeueIndex_eq (g : GsharePredictor) :
    (g.dequeueIndex.1 = true ∧ g.pending = [] ∧ g.dequeueIndex.2.pending = []) ∨
      (g.dequeueIndex.1 = false ∧
        g.pending = g.dequeueIndex.2.currentIndex :: g.dequeueIndex.2.pending) := by
  unfold pending
  rcases g.indexQueue.dequeue_eq with ⟨none, empty⟩ | ⟨index, b, taken, contents⟩
  · have cleared : g.dequeueIndex = (true, { g with currentIndex := 0 }) := by
      unfold dequeueIndex
      rw [none]
    rw [cleared]
    exact .inl ⟨rfl, empty, empty⟩
  · have dequeued : g.dequeueIndex = (false, { g with currentIndex := index, indexQueue := b }) := by
      unfold dequeueIndex
      rw [taken]
    rw [dequeued]
    exact .inr ⟨rfl, contents⟩

/-- A query reads the entry its address and the history give, and the index waits for
its update unless the queue is full. -/
theorem step_of_query {g : GsharePredictor} {packet : PredictorPacket}
    (query : packet.type = .requestQuery) :
    ∃ queued, (g.step packet).2 = [.queried g.globalBranchHistReg
        packet.instruction.staticInfo.instAddress
        (g.calculateIndex packet.instruction.staticInfo.instAddress).currentIndex queued] ∧
      (g.step packet).1.pending = g.pending ++ if queued = true then
        [(g.calculateIndex packet.instruction.staticInfo.instAddress).currentIndex] else [] := by
  let asked := (g.calculateIndex packet.instruction.staticInfo.instAddress).queryEntry
  have logged : (g.step packet).2 = [.queried g.globalBranchHistReg
      packet.instruction.staticInfo.instAddress asked.currentIndex !asked.enqueueIndex.1] := by
    unfold step events
    rw [query]
  have sent : (g.step packet).1.pending = asked.enqueueIndex.2.pending := by
    unfold step respond
    rw [query]
    dsimp only
    split <;> rfl
  rw [logged, sent]
  rcases asked.enqueueIndex_eq with ⟨full, same⟩ | ⟨room, longer⟩
  · rw [full, same]
    exact ⟨false, rfl, (List.append_nil _).symm⟩
  · rw [room, longer]
    exact ⟨true, rfl, rfl⟩

/-- An update trains the entry whose index has waited longest. -/
theorem step_of_update {g : GsharePredictor} {packet : PredictorPacket}
    (update : packet.type = .requestDirectionUpdate) :
    (g.pending = [] ∧ (g.step packet).2 = [.updated none] ∧ (g.step packet).1.pending = []) ∨
      ∃ index, g.pending = index :: (g.step packet).1.pending ∧
        (g.step packet).2 = [.updated (some index)] := by
  have trained : (g.step packet).1.pending = g.dequeueIndex.2.pending := by
    unfold step respond GsharePredictor.update
    rw [update]
    unfold dequeueIndex
    dsimp only
    split <;> rfl
  have logged : (g.step packet).2 =
      [.updated (if g.dequeueIndex.1 then none else some g.dequeueIndex.2.currentIndex)] := by
    unfold step events
    rw [update]
  rw [trained, logged]
  rcases g.dequeueIndex_eq with ⟨none, empty, empty'⟩ | ⟨some, first⟩
  · rw [none]
    exact .inl ⟨empty, rfl, empty'⟩
  · rw [some]
    exact .inr ⟨_, first, rfl⟩

theorem step_of_other {g : GsharePredictor} {packet : PredictorPacket}
    (notQuery : packet.type ≠ .requestQuery) (notUpdate : packet.type ≠ .requestDirectionUpdate) :
    g.step packet = (g, []) := by
  unfold step respond events
  cases kind : packet.type <;> simp_all

theorem extents_enqueueIndex (g : GsharePredictor) :
    g.enqueueIndex.2.indexQueue.extents 8 =
      ((g.indexQueue.enqueue g.currentIndex).getD g.indexQueue).extents 8 := by
  unfold enqueueIndex
  split <;> rename_i taken <;> rw [taken] <;> rfl

theorem extents_dequeueIndex (g : GsharePredictor) :
    g.dequeueIndex.2.indexQueue.extents 8 =
      ((g.indexQueue.dequeue.map Prod.snd).getD g.indexQueue).extents 8 := by
  unfold dequeueIndex
  split <;> rename_i taken <;> rw [taken] <;> rfl

theorem extents_update (g : GsharePredictor) :
    g.update.indexQueue.extents 8 = g.dequeueIndex.2.indexQueue.extents 8 := by
  by_cases empty : g.dequeueIndex.1 = true
  · rw [show g.update = g.dequeueIndex.2 from if_pos empty]
  · rw [show g.update = g.dequeueIndex.2.updateEntry.updateGlobBranchHistReg from if_neg empty]
    rfl

/-- As long as a growth fits, the extent of the queue moves as the queue does. -/
theorem extents_step (g : GsharePredictor) (inside : (g.indexQueue.extents 8).Inside)
    {packet : PredictorPacket} {op : ExtentOp} (queues : queueOp packet = some op)
    (room : (g.indexQueue.extents 8).GrowthFits op) :
    ((g.indexQueue.extents 8).step op).1 = (g.step packet).1.indexQueue.extents 8 := by
  have fits : g.indexQueue.bufferSize * 8 < 2147483648 := by
    have octets : (g.indexQueue.bufferSize : Int) * (8 : Nat) < 2147483648 := inside.fits
    exact_mod_cast octets
  unfold queueOp at queues
  split at queues
  · rename_i query
    cases queues
    let asked := (g.calculateIndex packet.instruction.staticInfo.instAddress).queryEntry
    have same : (g.step packet).1.indexQueue.extents 8 =
        asked.enqueueIndex.2.indexQueue.extents 8 := by
      unfold step respond
      rw [query]
      dsimp only
      split <;> rfl
    rw [same, extents_enqueueIndex]
    exact g.indexQueue.extents_enqueue (by decide) fits asked.currentIndex room
  · rename_i update
    cases queues
    let told : GsharePredictor := { g with wasBranchTaken := packet.taken }
    have same : (g.step packet).1.indexQueue.extents 8 = told.update.indexQueue.extents 8 := by
      unfold step respond
      rw [update]
    rw [same, extents_update, extents_dequeueIndex]
    exact g.indexQueue.extents_dequeue (by decide) fits
  · cases queues

/-- The index is the given number of the lowest bits of history and address together. -/
theorem calculateIndex_toNat (g : GsharePredictor) (addr : BitVec 64)
    (bits : g.indexBitsSize < 31) :
    (g.calculateIndex addr).currentIndex.toNat =
      (g.globalBranchHistReg ^^^ addr).toNat % 2 ^ g.indexBitsSize := by
  have masks : ∀ bits : Fin 31,
      (((1#32 <<< bits.val) - 1#32).signExtend 64).toNat = 2 ^ bits.val - 1 := by decide
  have mask := masks ⟨g.indexBitsSize, bits⟩
  unfold calculateIndex
  dsimp only
  rw [BitVec.toNat_and, mask, Nat.and_two_pow_sub_one_eq_mod]

end GsharePredictor

end Sinuca3.Source
