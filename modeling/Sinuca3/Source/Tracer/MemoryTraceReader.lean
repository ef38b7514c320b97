import Mathlib.Data.List.Basic
import Sinuca3.Source.Tracer.FileHandler

/-!
# Memory trace reader

`tracer/sinuca/utils/memory_trace_reader.cpp`. The memory stream of a thread is
a sequence of groups, each a header with a count and that many loads and stores.
Reading one group takes it whole from the records not handed out yet, whether or
not it straddles the record arrays, and copies it to the packet
(`readMemoryOperations_group`).
-/
namespace Sinuca3.Source

namespace DynamicInstructionInfo

/-- What a consumer reads in the first `numReadings` slots. -/
def loads (d : DynamicInstructionInfo) : List (BitVec 64 × BitVec 32) :=
  (d.readsAddr.toList.take d.numReadings).zip (d.readsSize.toList.take d.numReadings)

def stores (d : DynamicInstructionInfo) : List (BitVec 64 × BitVec 32) :=
  (d.writesAddr.toList.take d.numWritings).zip (d.writesSize.toList.take d.numWritings)

theorem loads_of_none {d : DynamicInstructionInfo} (none : d.numReadings = 0) : d.loads = [] := by
  simp [loads, none]

theorem stores_of_none {d : DynamicInstructionInfo} (none : d.numWritings = 0) :
    d.stores = [] := by
  simp [stores, none]

/-- `numReadings` is an `unsigned short`. The source would write outside the
arrays from the seventeenth load on; here the write is dropped. -/
def pushLoad (d : DynamicInstructionInfo) (address : BitVec 64) (size : BitVec 16) :
    DynamicInstructionInfo :=
  { d with
    readsAddr := d.readsAddr.setIfInBounds d.numReadings address
    readsSize := d.readsSize.setIfInBounds d.numReadings (size.setWidth 32)
    numReadings := (d.numReadings + 1) % 65536 }

def pushStore (d : DynamicInstructionInfo) (address : BitVec 64) (size : BitVec 16) :
    DynamicInstructionInfo :=
  { d with
    writesAddr := d.writesAddr.setIfInBounds d.numWritings address
    writesSize := d.writesSize.setIfInBounds d.numWritings (size.setWidth 32)
    numWritings := (d.numWritings + 1) % 65536 }

/-- Writing slot `n` extends what the first `n` slots hold. -/
theorem take_set_succ {α : Type} (slots : List α) (n : Nat) (x : α) (inside : n < slots.length) :
    (slots.set n x).take (n + 1) = slots.take n ++ [x] := by
  rw [List.take_add_one, List.take_set_of_le (Nat.le_refl n)]
  simp [inside]

private theorem zip_take_set_succ {addresses : List (BitVec 64)} {sizes : List (BitVec 32)}
    {n : Nat} (a : BitVec 64) (s : BitVec 32) (inside : n < addresses.length)
    (inside' : n < sizes.length) :
    ((addresses.set n a).take (n + 1)).zip ((sizes.set n s).take (n + 1)) =
      (addresses.take n).zip (sizes.take n) ++ [(a, s)] := by
  rw [take_set_succ _ _ _ inside, take_set_succ _ _ _ inside', List.zip_append]
  · rfl
  · simp only [List.length_take]
    omega

section Push

variable (d : DynamicInstructionInfo) (address : BitVec 64) (size : BitVec 16)

theorem loads_pushLoad (room : d.numReadings < maxMemOperations) :
    (d.pushLoad address size).loads = d.loads ++ [(address, size.setWidth 32)] := by
  have count : (d.numReadings + 1) % 65536 = d.numReadings + 1 :=
    Nat.mod_eq_of_lt (by unfold maxMemOperations at room; omega)
  simp only [loads, pushLoad, count, Vector.toList_setIfInBounds]
  exact zip_take_set_succ _ _ (by simpa using room) (by simpa using room)

theorem stores_pushStore (room : d.numWritings < maxMemOperations) :
    (d.pushStore address size).stores = d.stores ++ [(address, size.setWidth 32)] := by
  have count : (d.numWritings + 1) % 65536 = d.numWritings + 1 :=
    Nat.mod_eq_of_lt (by unfold maxMemOperations at room; omega)
  simp only [stores, pushStore, count, Vector.toList_setIfInBounds]
  exact zip_take_set_succ _ _ (by simpa using room) (by simpa using room)

theorem numReadings_pushLoad (room : d.numReadings < maxMemOperations) :
    (d.pushLoad address size).numReadings = d.numReadings + 1 :=
  Nat.mod_eq_of_lt (by unfold maxMemOperations at room; omega)

theorem numWritings_pushStore (room : d.numWritings < maxMemOperations) :
    (d.pushStore address size).numWritings = d.numWritings + 1 :=
  Nat.mod_eq_of_lt (by unfold maxMemOperations at room; omega)

@[simp] theorem stores_pushLoad : (d.pushLoad address size).stores = d.stores := rfl

@[simp] theorem loads_pushStore : (d.pushStore address size).loads = d.loads := rfl

@[simp] theorem numWritings_pushLoad : (d.pushLoad address size).numWritings = d.numWritings := rfl

@[simp] theorem numReadings_pushStore :
    (d.pushStore address size).numReadings = d.numReadings := rfl

end Push

end DynamicInstructionInfo

structure MemoryTraceReader where
  /-- Records `fread` has not returned yet. -/
  file : List MemoryTraceRecord
  recordArray : List MemoryTraceRecord
  numberOfRecordsRead : Nat
  recordArrayIndex : Nat
  reachedEnd : Bool

namespace MemoryTraceReader

def openFile (records : List MemoryTraceRecord) : MemoryTraceReader where
  file := records
  recordArray := []
  numberOfRecordsRead := 0
  recordArrayIndex := 0
  reachedEnd := false

def loadRecordArray (m : MemoryTraceReader) : Bool × MemoryTraceReader :=
  let chunk := m.file.take recordArraySize
  (chunk.length == 0,
    { m with
      file := m.file.drop recordArraySize
      recordArray := chunk
      numberOfRecordsRead := chunk.length
      recordArrayIndex := 0 })

/-- The refill both loops make before they look at a record. -/
def refill (m : MemoryTraceReader) : Bool × MemoryTraceReader :=
  if m.recordArrayIndex = m.numberOfRecordsRead then m.loadRecordArray else (false, m)

/-- The record the index points to. -/
def current (m : MemoryTraceReader) : MemoryTraceRecord :=
  m.recordArray.getD m.recordArrayIndex default

def advance (m : MemoryTraceReader) : MemoryTraceReader :=
  { m with recordArrayIndex := m.recordArrayIndex + 1 }

def markEnd (m : MemoryTraceReader) : MemoryTraceReader := { m with reachedEnd := true }

/-- The loop over the operations of one group. -/
def readOperations :
    Nat → MemoryTraceReader → InstructionPacket → Bool × InstructionPacket × MemoryTraceReader
  | 0, m, inst => (false, inst, m)
  | n + 1, m, inst =>
    match m.refill with
    | (true, m) => (true, inst, m.markEnd)
    | (false, m) =>
      let record := m.current
      match record.getRecordType with
      | .load =>
        readOperations n m.advance
          { inst with dynamicInfo := inst.dynamicInfo.pushLoad record.address record.size }
      | .store =>
        readOperations n m.advance
          { inst with dynamicInfo := inst.dynamicInfo.pushStore record.address record.size }
      | _ => (true, inst, m)

/-- Non-zero return codes are `true`; a negative count runs the loop no times. -/
def readMemoryOperations (m : MemoryTraceReader) (inst : InstructionPacket) :
    Bool × InstructionPacket × MemoryTraceReader :=
  if m.reachedEnd then (true, inst, m)
  else
    match m.refill with
    | (true, m) => (true, inst, m.markEnd)
    | (false, m) =>
      if m.current.getRecordType ≠ .header then (true, inst, m)
      else
        let totalMemOps := m.current.numberOfMemoryOps
        readOperations totalMemOps.toNat m.advance inst

/-- Whether a group can be read does not depend on the packet it goes to, which keeps
its static information. -/
theorem readOperations_packet (n : Nat) (m : MemoryTraceReader) (inst inst' : InstructionPacket) :
    (readOperations n m inst).1 = (readOperations n m inst').1 ∧
      (readOperations n m inst).2.1.staticInfo = inst.staticInfo := by
  induction n generalizing m inst inst' with
  | zero => exact ⟨rfl, rfl⟩
  | succ n ih =>
    unfold readOperations
    rcases m.refill with ⟨_ | _, m'⟩
    · dsimp only
      cases m'.current.getRecordType with
      | load => exact ih _ _ _
      | store => exact ih _ _ _
      | _ => exact ⟨rfl, rfl⟩
    · exact ⟨rfl, rfl⟩

theorem readMemoryOperations_packet (m : MemoryTraceReader) (inst inst' : InstructionPacket) :
    (m.readMemoryOperations inst).1 = (m.readMemoryOperations inst').1 ∧
      (m.readMemoryOperations inst).2.1.staticInfo = inst.staticInfo := by
  unfold readMemoryOperations
  split
  · exact ⟨rfl, rfl⟩
  rcases m.refill with ⟨_ | _, m'⟩
  · dsimp only
    split
    · exact ⟨rfl, rfl⟩
    · exact readOperations_packet _ _ _ _
  · exact ⟨rfl, rfl⟩

def hasReachedEnd (m : MemoryTraceReader) : Bool := m.reachedEnd

/-- The counters describe the array. -/
structure Consistent (m : MemoryTraceReader) : Prop where
  count : m.numberOfRecordsRead = m.recordArray.length
  index : m.recordArrayIndex ≤ m.numberOfRecordsRead

/-- Records not handed out yet. -/
def pending (m : MemoryTraceReader) : List MemoryTraceRecord :=
  m.recordArray.drop m.recordArrayIndex ++ m.file

theorem consistent_openFile (records : List MemoryTraceRecord) :
    (openFile records).Consistent := ⟨rfl, Nat.le_refl 0⟩

@[simp] theorem pending_openFile (records : List MemoryTraceRecord) :
    (openFile records).pending = records := rfl

/-- After a refill the record looked at is the first one pending, and moving the
index past it takes just that record. -/
theorem refill_cons (m : MemoryTraceReader) (consistent : m.Consistent) (r : MemoryTraceRecord)
    (rest : List MemoryTraceRecord) (next : m.pending = r :: rest) :
    ∃ m', m.refill = (false, m') ∧ m'.current = r ∧ m'.advance.pending = rest ∧
      m'.advance.Consistent ∧ m'.reachedEnd = m.reachedEnd := by
  by_cases used : m.recordArrayIndex = m.numberOfRecordsRead
  · rw [pending, used, consistent.count, List.drop_length, List.nil_append] at next
    obtain ⟨n, size⟩ := Nat.exists_eq_succ_of_ne_zero (Nat.ne_of_gt recordArraySize_pos)
    refine ⟨m.loadRecordArray.2, ?_, ?_, ?_, ⟨rfl, ?_⟩, rfl⟩
    · rw [refill, if_pos used]
      simp [loadRecordArray, next, size]
    · simp [loadRecordArray, current, next, size]
    · simp [loadRecordArray, advance, pending, next, size]
    · simp [loadRecordArray, advance, next, size]
  · have inside : m.recordArrayIndex < m.recordArray.length := by
      have := consistent.index
      rw [← consistent.count]
      omega
    rw [pending, List.drop_eq_getElem_cons inside, List.cons_append, List.cons.injEq] at next
    refine ⟨m, by rw [refill, if_neg used], ?_, next.2, ⟨consistent.count, ?_⟩, rfl⟩
    · simp [current, inside, next.1]
    · simp only [advance, consistent.count]
      omega

end MemoryTraceReader

/-- The memory operations of one executed instruction, as the tracer records
them: no more loads and no more stores than a packet has room for. -/
structure MemoryGroup where
  header : MemoryTraceRecord
  operations : List MemoryTraceRecord
  is_header : header.getRecordType = .header
  count : header.numberOfMemoryOps = operations.length
  kinds : ∀ r ∈ operations, r.getRecordType = .load ∨ r.getRecordType = .store
  loads_le : (operations.filter (·.getRecordType = .load)).length ≤ maxMemOperations
  stores_le : (operations.filter (·.getRecordType = .store)).length ≤ maxMemOperations

namespace MemoryGroup

def records (g : MemoryGroup) : List MemoryTraceRecord := g.header :: g.operations

/-- Address and size of the operations of one kind, in stream order. -/
def accesses (kind : MemoryRecordType) (records : List MemoryTraceRecord) :
    List (BitVec 64 × BitVec 32) :=
  (records.filter (·.getRecordType = kind)).map fun r => (r.address, r.size.setWidth 32)

def loads (g : MemoryGroup) : List (BitVec 64 × BitVec 32) := accesses .load g.operations

def stores (g : MemoryGroup) : List (BitVec 64 × BitVec 32) := accesses .store g.operations

end MemoryGroup

namespace MemoryTraceReader

/-- The loop appends the operations to what the packet already holds. -/
theorem readOperations_group (operations rest : List MemoryTraceRecord) (m : MemoryTraceReader)
    (inst : InstructionPacket) (consistent : m.Consistent)
    (next : m.pending = operations ++ rest)
    (kinds : ∀ r ∈ operations, r.getRecordType = .load ∨ r.getRecordType = .store)
    (loads_le : inst.dynamicInfo.numReadings +
      (operations.filter (·.getRecordType = .load)).length ≤ maxMemOperations)
    (stores_le : inst.dynamicInfo.numWritings +
      (operations.filter (·.getRecordType = .store)).length ≤ maxMemOperations) :
    ∃ inst' m', readOperations operations.length m inst = (false, inst', m') ∧
      m'.pending = rest ∧ m'.Consistent ∧ m'.reachedEnd = m.reachedEnd ∧
      inst'.staticInfo = inst.staticInfo ∧
      inst'.dynamicInfo.loads =
        inst.dynamicInfo.loads ++ MemoryGroup.accesses .load operations ∧
      inst'.dynamicInfo.stores =
        inst.dynamicInfo.stores ++ MemoryGroup.accesses .store operations ∧
      inst'.dynamicInfo.numReadings =
        inst.dynamicInfo.numReadings + (MemoryGroup.accesses .load operations).length ∧
      inst'.dynamicInfo.numWritings =
        inst.dynamicInfo.numWritings + (MemoryGroup.accesses .store operations).length := by
  induction operations generalizing m inst with
  | nil => exact ⟨inst, m, rfl, next, consistent, rfl, rfl, by simp [MemoryGroup.accesses],
      by simp [MemoryGroup.accesses], rfl, rfl⟩
  | cons r operations ih =>
    obtain ⟨m', filled, here, later, consistent', same⟩ := m.refill_cons consistent r _ next
    have kinds' := fun r' member => kinds r' (List.mem_cons_of_mem r member)
    rcases kinds r (List.mem_cons_self ..) with load | store
    · have room : inst.dynamicInfo.numReadings < maxMemOperations := by
        simp [load] at loads_le
        omega
      obtain ⟨inst', m'', read, rest', fresh, same', static', loads', stores', readings,
          writings⟩ := ih m'.advance
          { inst with dynamicInfo := inst.dynamicInfo.pushLoad r.address r.size }
          consistent' later kinds'
          (by
            rw [DynamicInstructionInfo.numReadings_pushLoad _ _ _ room]
            simp [load] at loads_le
            omega)
          (by simpa [load] using stores_le)
      refine ⟨inst', m'', ?_, rest', fresh, same'.trans same, static', ?_, ?_, ?_, ?_⟩
      · simp [readOperations, filled, here, load, read]
      · rw [loads', DynamicInstructionInfo.loads_pushLoad _ _ _ room]
        simp [MemoryGroup.accesses, load]
      · rw [stores']
        simp [MemoryGroup.accesses, load]
      · rw [readings, DynamicInstructionInfo.numReadings_pushLoad _ _ _ room]
        simp [MemoryGroup.accesses, load]
        omega
      · rw [writings]
        simp [MemoryGroup.accesses, load]
    · have room : inst.dynamicInfo.numWritings < maxMemOperations := by
        simp [store] at stores_le
        omega
      obtain ⟨inst', m'', read, rest', fresh, same', static', loads', stores', readings,
          writings⟩ := ih m'.advance
          { inst with dynamicInfo := inst.dynamicInfo.pushStore r.address r.size }
          consistent' later kinds'
          (by simpa [store] using loads_le)
          (by
            rw [DynamicInstructionInfo.numWritings_pushStore _ _ _ room]
            simp [store] at stores_le
            omega)
      refine ⟨inst', m'', ?_, rest', fresh, same'.trans same, static', ?_, ?_, ?_, ?_⟩
      · simp [readOperations, filled, here, store, read]
      · rw [loads']
        simp [MemoryGroup.accesses, store]
      · rw [stores', DynamicInstructionInfo.stores_pushStore _ _ _ room]
        simp [MemoryGroup.accesses, store]
      · rw [readings]
        simp [MemoryGroup.accesses, store]
      · rw [writings, DynamicInstructionInfo.numWritings_pushStore _ _ _ room]
        simp [MemoryGroup.accesses, store]
        omega

/-- With a group next in the stream, a cleared packet receives exactly that
group and the reader is left before the following one. -/
theorem readMemoryOperations_group (m : MemoryTraceReader) (inst : InstructionPacket)
    (g : MemoryGroup) (rest : List MemoryTraceRecord) (consistent : m.Consistent)
    (running : m.reachedEnd = false) (next : m.pending = g.records ++ rest)
    (noReadings : inst.dynamicInfo.numReadings = 0)
    (noWritings : inst.dynamicInfo.numWritings = 0) :
    ∃ inst' m', m.readMemoryOperations inst = (false, inst', m') ∧
      m'.pending = rest ∧ m'.Consistent ∧ m'.reachedEnd = false ∧
      inst'.staticInfo = inst.staticInfo ∧
      inst'.dynamicInfo.loads = g.loads ∧ inst'.dynamicInfo.stores = g.stores ∧
      inst'.dynamicInfo.numReadings = g.loads.length ∧
      inst'.dynamicInfo.numWritings = g.stores.length := by
  obtain ⟨m', filled, here, later, consistent', same⟩ :=
    m.refill_cons consistent g.header (g.operations ++ rest) next
  obtain ⟨inst', m'', read, rest', fresh, same', static', loads', stores', readings, writings⟩ :=
    readOperations_group g.operations rest m'.advance inst consistent' later g.kinds
      (by simpa [noReadings] using g.loads_le) (by simpa [noWritings] using g.stores_le)
  refine ⟨inst', m'', ?_, rest', fresh, ?_, static', ?_, ?_, ?_, ?_⟩
  · simp [readMemoryOperations, running, filled, here, g.is_header, g.count, read]
  · rw [same', ← running, ← same]
    rfl
  · rw [loads', DynamicInstructionInfo.loads_of_none noReadings, List.nil_append]
    rfl
  · rw [stores', DynamicInstructionInfo.stores_of_none noWritings, List.nil_append]
    rfl
  · rw [readings, noReadings, Nat.zero_add]
    rfl
  · rw [writings, noWritings, Nat.zero_add]
    rfl

end MemoryTraceReader

end Sinuca3.Source
