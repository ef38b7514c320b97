import Sinuca3.Source.Tracer.Replay

/-!
# Indices of a fetch

What a call of `SinucaTraceReader::Fetch` indexes arrays with: `threadDataVec` with a
thread, `instructionDict` and `basicBlockSizeArr` with a basic block and an instruction,
and the arrays of the packet with the slots it stores to. Where no index is out of its
range the functions of `TraceReader` do what the source does.
-/
namespace Sinuca3.Source
open Lib

inductive ReplayIndex where
  | thread (tid : Nat)
  | instruction (bblIndex inst : Nat)
  | load (slot : Nat)
  | store (slot : Nat)
  deriving DecidableEq

/-- Within a trace of so many threads and its dictionary, and within the packet. -/
def ReplayIndex.InRange (d : StaticDictionary) (totalThreads : Nat) : ReplayIndex → Prop
  | .thread tid => tid < totalThreads
  | .instruction bblIndex inst =>
    bblIndex < d.blocks.length ∧ inst < (d.block bblIndex).length
  | .load slot => slot < maxMemOperations
  | .store slot => slot < maxMemOperations

instance (d : StaticDictionary) (totalThreads : Nat) :
    DecidablePred (ReplayIndex.InRange d totalThreads)
  | .thread _ => inferInstanceAs (Decidable (_ < _))
  | .instruction _ _ => inferInstanceAs (Decidable (_ ∧ _))
  | .load _ => inferInstanceAs (Decidable (_ < _))
  | .store _ => inferInstanceAs (Decidable (_ < _))

namespace MemoryTraceReader

/-- The slots the loop over the operations of a group stores to. -/
def operationSlots : Nat → MemoryTraceReader → DynamicInstructionInfo → List ReplayIndex
  | 0, _, _ => []
  | n + 1, m, d =>
    match m.refill with
    | (true, _) => []
    | (false, m) =>
      let record := m.current
      match record.getRecordType with
      | .load =>
        .load d.numReadings :: operationSlots n m.advance (d.pushLoad record.address record.size)
      | .store =>
        .store d.numWritings :: operationSlots n m.advance (d.pushStore record.address record.size)
      | _ => []

/-- Those of `ReadMemoryOperations`. -/
def memoryOperationSlots (m : MemoryTraceReader) (d : DynamicInstructionInfo) : List ReplayIndex :=
  if m.reachedEnd then []
  else
    match m.refill with
    | (true, _) => []
    | (false, m) =>
      if m.current.getRecordType ≠ .header then []
      else operationSlots m.current.numberOfMemoryOps.toNat m.advance d

end MemoryTraceReader

def MemoryTraceRecord.isOperation (r : MemoryTraceRecord) : Bool :=
  r.getRecordType = .load || r.getRecordType = .store

/-- Of the operations a group announces, those that are read: up to the end of the file
or a record of another type. -/
def readableOperations (n : Nat) (records : List MemoryTraceRecord) : List MemoryTraceRecord :=
  (records.take n).takeWhile MemoryTraceRecord.isOperation

def countLoads (operations : List MemoryTraceRecord) : Nat :=
  (operations.filter (·.getRecordType = .load)).length

def countStores (operations : List MemoryTraceRecord) : Nat :=
  (operations.filter (·.getRecordType = .store)).length

/-- The group next in the stream, as far as it is read, fits in a packet. -/
def GroupFits : List MemoryTraceRecord → Prop
  | [] => True
  | header :: rest =>
    header.getRecordType = .header →
      countLoads (readableOperations header.numberOfMemoryOps.toNat rest) ≤ maxMemOperations ∧
      countStores (readableOperations header.numberOfMemoryOps.toNat rest) ≤ maxMemOperations

instance : DecidablePred GroupFits
  | [] => .isTrue trivial
  | _ :: _ => inferInstanceAs (Decidable (_ → _))

namespace SinucaTraceReader

/-- The reader as `Fetch` has it when it comes to an instruction, if it does. -/
def atInstruction (s : SinucaTraceReader) (tid : Nat) : Option SinucaTraceReader :=
  if (s.threadDataVec tid).dynFile.hasReachedEnd then none
  else if s.isThreadSleeping tid then none
  else if (s.threadDataVec tid).isInsideBasicBlock then some s
  else
    match (s.setThread tid { s.threadDataVec tid with currentInst := 0 }).fetchBasicBlock tid with
    | (true, _) => none
    | (false, s) => some (s.setThread tid { s.threadDataVec tid with isInsideBasicBlock := true })

/-- The indices of the tail of `Fetch`. -/
def instructionIndices (s : SinucaTraceReader) (ret : InstructionPacket) (tid : Nat) :
    List ReplayIndex :=
  let t := s.threadDataVec tid
  let staticInfo := s.instructionDict t.currentBasicBlock t.currentInst
  .instruction t.currentBasicBlock t.currentInst ::
    if staticInfo.instReadsMemory || staticInfo.instWritesMemory then
      if t.memFile.hasReachedEnd then []
      else t.memFile.memoryOperationSlots (resetInstructionPacket ret).dynamicInfo
    else []

/-- The indices of a call of `Fetch`; `HasExecutionEnded` looks at thread 0. The loops
over all threads stay in range by their bound. -/
def fetchIndices (s : SinucaTraceReader) (call : FetchCall) : List ReplayIndex :=
  (if s.reachedAbruptEnd then [] else [.thread 0]) ++
    if s.hasExecutionEnded then []
    else
      .thread call.tid ::
        match s.atInstruction call.tid with
        | none => []
        | some s => s.instructionIndices call.ret call.tid

end SinucaTraceReader

namespace MemoryTraceReader

/-- A refill finds the record next in the stream, or the stream is over. -/
theorem refill_cases (m : MemoryTraceReader) (consistent : m.Consistent) :
    (m.pending = [] ∧ ∃ m', m.refill = (true, m') ∧ m'.Consistent) ∨
    (∃ r rest m', m.pending = r :: rest ∧ m.refill = (false, m') ∧ m'.current = r ∧
      m'.Consistent ∧ m'.advance.pending = rest ∧ m'.advance.Consistent) := by
  rcases pending : m.pending with _ | ⟨r, rest⟩
  · refine .inl ⟨rfl, ?_⟩
    unfold MemoryTraceReader.pending at pending
    obtain ⟨read, none⟩ := List.append_eq_nil_iff.mp pending
    have used : m.recordArrayIndex = m.numberOfRecordsRead := by
      have past := List.drop_eq_nil_iff.mp read
      have index := consistent.index
      rw [consistent.count] at index ⊢
      exact Nat.le_antisymm index past
    refine ⟨m.loadRecordArray.2, ?_, ⟨rfl, Nat.zero_le _⟩⟩
    rw [refill, if_pos used]
    simp [loadRecordArray, none]
  · refine .inr ⟨r, rest, ?_⟩
    obtain ⟨m', refilled, here, later, fresh, _⟩ := m.refill_cons consistent r rest pending
    refine ⟨m', rfl, refilled, here, ?_, later, fresh⟩
    constructor
    · exact fresh.count
    · exact Nat.le_of_succ_le fresh.index

theorem markEnd_consistent {m : MemoryTraceReader} (consistent : m.Consistent) :
    m.markEnd.Consistent := ⟨consistent.count, consistent.index⟩

theorem readOperations_consistent (n : Nat) (m : MemoryTraceReader) (inst : InstructionPacket)
    (consistent : m.Consistent) : (readOperations n m inst).2.2.Consistent := by
  induction n generalizing m inst with
  | zero => exact consistent
  | succ n ih =>
    unfold readOperations
    rcases m.refill_cases consistent with
      ⟨_, m', refilled, fresh⟩ | ⟨r, rest, m', _, refilled, _, fresh, _, fresh'⟩
    · rw [refilled]
      exact markEnd_consistent fresh
    · rw [refilled]
      dsimp only
      split
      · exact ih _ _ fresh'
      · exact ih _ _ fresh'
      · exact fresh

theorem readMemoryOperations_consistent (m : MemoryTraceReader) (inst : InstructionPacket)
    (consistent : m.Consistent) : (m.readMemoryOperations inst).2.2.Consistent := by
  unfold readMemoryOperations
  split
  · exact consistent
  · rcases m.refill_cases consistent with
      ⟨_, m', refilled, fresh⟩ | ⟨r, rest, m', _, refilled, _, fresh, _, fresh'⟩
    · rw [refilled]
      exact markEnd_consistent fresh
    · rw [refilled]
      dsimp only
      split
      · exact fresh
      · exact readOperations_consistent _ _ _ fresh'

/-- The loop stores to slots of the packet exactly when the operations it reads fit
behind those already stored. -/
theorem operationSlots_inRange (d : StaticDictionary) (threads n : Nat) (m : MemoryTraceReader)
    (info : DynamicInstructionInfo) (consistent : m.Consistent)
    (loads : info.numReadings ≤ maxMemOperations) (stores : info.numWritings ≤ maxMemOperations) :
    (∀ i ∈ operationSlots n m info, i.InRange d threads) ↔
      info.numReadings + countLoads (readableOperations n m.pending) ≤ maxMemOperations ∧
      info.numWritings + countStores (readableOperations n m.pending) ≤ maxMemOperations := by
  induction n generalizing m info with
  | zero => simp [operationSlots, readableOperations, countLoads, countStores, loads, stores]
  | succ n ih =>
    unfold operationSlots
    rcases m.refill_cases consistent with
      ⟨pending, m', refilled, _⟩ | ⟨r, rest, m', pending, refilled, here, _, later, fresh⟩
    · rw [refilled, pending]
      simp [readableOperations, countLoads, countStores, loads, stores]
    · rw [refilled, pending]
      dsimp only
      rw [here]
      split
      · rename_i kind
        have kept : readableOperations (n + 1) (r :: rest) = r :: readableOperations n rest := by
          simp [readableOperations, MemoryTraceRecord.isOperation, kind]
        have one : countLoads (r :: readableOperations n rest) =
            countLoads (readableOperations n rest) + 1 := by simp [countLoads, kind]
        have none : countStores (r :: readableOperations n rest) =
            countStores (readableOperations n rest) := by simp [countStores, kind]
        rw [kept, one, none, List.forall_mem_cons]
        by_cases room : info.numReadings < maxMemOperations
        · have pushed := info.numReadings_pushLoad r.address r.size room
          rw [ih m'.advance (info.pushLoad r.address r.size) fresh (by rw [pushed]; exact room) stores,
            later, pushed,
            DynamicInstructionInfo.numWritings_pushLoad]
          simp only [ReplayIndex.InRange, room, true_and]
          omega
        · simp only [ReplayIndex.InRange, room, false_and, false_iff]
          omega
      · rename_i kind
        have kept : readableOperations (n + 1) (r :: rest) = r :: readableOperations n rest := by
          simp [readableOperations, MemoryTraceRecord.isOperation, kind]
        have none : countLoads (r :: readableOperations n rest) =
            countLoads (readableOperations n rest) := by simp [countLoads, kind]
        have one : countStores (r :: readableOperations n rest) =
            countStores (readableOperations n rest) + 1 := by simp [countStores, kind]
        rw [kept, one, none, List.forall_mem_cons]
        by_cases room : info.numWritings < maxMemOperations
        · have pushed := info.numWritings_pushStore r.address r.size room
          rw [ih m'.advance (info.pushStore r.address r.size) fresh loads (by rw [pushed]; exact room),
            later, pushed,
            DynamicInstructionInfo.numReadings_pushStore]
          simp only [ReplayIndex.InRange, room, true_and]
          omega
        · simp only [ReplayIndex.InRange, room, false_and, false_iff]
          omega
      · rename_i load store
        have none : readableOperations (n + 1) (r :: rest) = [] := by
          simp only [readableOperations, List.take_succ_cons, List.takeWhile_cons]
          rw [if_neg]
          simpa [MemoryTraceRecord.isOperation] using ⟨load, store⟩
        rw [none]
        simp [countLoads, countStores, loads, stores]

/-- For a packet with cleared counters. -/
theorem memoryOperationSlots_inRange (d : StaticDictionary) (threads : Nat) (m : MemoryTraceReader)
    (info : DynamicInstructionInfo) (consistent : m.Consistent) (running : m.reachedEnd = false)
    (loads : info.numReadings = 0) (stores : info.numWritings = 0) :
    (∀ i ∈ m.memoryOperationSlots info, i.InRange d threads) ↔ GroupFits m.pending := by
  unfold memoryOperationSlots
  rw [if_neg (by simp [running])]
  rcases m.refill_cases consistent with
    ⟨pending, m', refilled, _⟩ | ⟨r, rest, m', pending, refilled, here, _, later, fresh⟩
  · rw [refilled, pending]
    simp [GroupFits]
  · rw [refilled, pending]
    dsimp only
    rw [here]
    split
    · rename_i other
      simp [GroupFits, other]
    · rename_i header
      have header : r.getRecordType = .header := not_not.mp header
      rw [operationSlots_inRange d threads _ _ _ fresh (by omega) (by omega), later, loads, stores,
        Nat.zero_add, Nat.zero_add]
      simp [GroupFits, header]

end MemoryTraceReader

end Sinuca3.Source
