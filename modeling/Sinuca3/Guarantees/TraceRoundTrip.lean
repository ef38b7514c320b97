import Sinuca3.Source.TraceGenerator.TraceWriter
import Sinuca3.Source.Tracer.TraceFile

/-!
# Round trips of dynamic and memory traces

What a writer was given is what a reader of its file returns, in order, wherever the
records stand relative to the arrays of either.
-/
namespace Sinuca3.Guarantees
open Sinuca3.Source Lib

/-- A reader that has handed out everything but `records`. -/
structure LeftToRead (records : List DynamicTraceRecord) (t : DynamicTraceFile) : Prop where
  consistent : t.dynamic.Consistent
  pending : t.dynamic.pending = records
  running : t.reachedEnd = false

theorem leftToRead_cons {r : DynamicTraceRecord} {rest : List DynamicTraceRecord}
    {t : DynamicTraceFile} (before : LeftToRead (r :: rest) t) :
    t.readDynamicRecord.1 = false ∧ t.readDynamicRecord.2.current = r ∧
      LeftToRead rest t.readDynamicRecord.2 := by
  obtain ⟨d, read, here, later, fresh, running⟩ :=
    DynamicTraceReader.readDynamicRecord_cons _ before.consistent before.running r rest
      before.pending
  rw [DynamicTraceFile.dynamic_readDynamicRecord, Prod.mk.injEq] at read
  obtain ⟨ok, rfl⟩ := read
  exact ⟨ok, here, fresh, later, running⟩

theorem leftToRead_nil {t : DynamicTraceFile} (before : LeftToRead [] t) :
    t.readDynamicRecord.1 = true ∧ t.readDynamicRecord.2.reachedEnd = true := by
  obtain ⟨d, read, _, _, ended⟩ :=
    DynamicTraceReader.readDynamicRecord_nil _ before.consistent before.running before.pending
  rw [DynamicTraceFile.dynamic_readDynamicRecord, Prod.mk.injEq] at read
  obtain ⟨failed, rfl⟩ := read
  exact ⟨failed, ended⟩

theorem readDynamicRecord_ended {t : DynamicTraceFile} (ended : t.reachedEnd = true) :
    t.readDynamicRecord = (true, t) := by
  rw [DynamicTraceFile.readDynamicRecord, if_pos ended]

theorem readTimes_leftToRead {records : List DynamicTraceRecord} {t : DynamicTraceFile}
    (start : LeftToRead records t) (k : Nat) (within : k ≤ records.length) :
    LeftToRead (records.drop k) (t.readTimes k) := by
  induction k with
  | zero => exact start
  | succ k ih =>
    have present : k < records.length := within
    have before := ih (by omega)
    rw [List.drop_eq_getElem_cons present] at before
    exact (leftToRead_cons before).2.2

theorem readTimes_ended {records : List DynamicTraceRecord} {t : DynamicTraceFile}
    (start : LeftToRead records t) (k : Nat) (beyond : records.length ≤ k) :
    (t.readTimes k).readDynamicRecord.1 = true ∧
      (t.readTimes k).readDynamicRecord.2.reachedEnd = true := by
  induction k with
  | zero =>
    obtain rfl : records = [] := List.eq_nil_of_length_eq_zero (Nat.le_zero.mp beyond)
    exact leftToRead_nil start
  | succ k ih =>
    rcases Nat.lt_or_ge k records.length with last | past
    · have before := readTimes_leftToRead start (k + 1) last
      rw [List.drop_eq_nil_of_le beyond] at before
      exact leftToRead_nil before
    · have ended := (ih past).2
      change (t.readTimes (k + 1)).reachedEnd = true at ended
      rw [readDynamicRecord_ended ended]
      exact ⟨rfl, ended⟩

/-- Successive reads return `records`, and from then on the end. -/
def Returns (records : List DynamicTraceRecord) (t : DynamicTraceFile) : Prop :=
  ∀ k, (∀ present : k < records.length,
      (t.readTimes k).readDynamicRecord.1 = false ∧
        (t.readTimes k).readDynamicRecord.2.current = records[k]) ∧
    (records.length ≤ k →
      (t.readTimes k).readDynamicRecord.1 = true ∧
        (t.readTimes k).readDynamicRecord.2.hasReachedEnd = true)

theorem LeftToRead.returns {records : List DynamicTraceRecord} {t : DynamicTraceFile}
    (start : LeftToRead records t) : Returns records t := by
  intro k
  refine ⟨fun present => ?_, readTimes_ended start k⟩
  have before := readTimes_leftToRead start k (Nat.le_of_lt present)
  rw [List.drop_eq_getElem_cons present] at before
  exact ⟨(leftToRead_cons before).1, (leftToRead_cons before).2.1⟩

/-- A file of the header and some records, opened. -/
theorem openFile_records {α : Type} (c : Codec α) (positive : 0 < c.width) (header : FileHeader)
    (records : List α) :
    ∃ file, TraceFile.openFile (FileHeader.codec.encode header ++ records.flatMap c.encode) =
        some ({
          file := file
          header := header
          recordArray := []
          numberOfRecordsRead := 0
          recordArrayIndex := 0
          reachedEnd := false } : TraceFile α) ∧
      c.records file.remaining = records := by
  obtain ⟨file, loaded, remaining⟩ := FileHeader.loadHeader_encode header (records.flatMap c.encode)
  refine ⟨file, by rw [TraceFile.openFile, loaded], ?_⟩
  have whole := c.records_encode positive records [] positive
  rwa [remaining, ← List.append_nil (records.flatMap c.encode)]

/-- The record a call appends. -/
def appended : DynamicTraceWriter.Call → Option DynamicTraceRecord
  | .addThreadEvent evType => some (.threadEvent evType)
  | .addBasicBlockId identifier => some (.basicBlock identifier)
  | _ => none

/-- The number a call passes to `IncExecutedInstructions`. -/
def counted : DynamicTraceWriter.Call → Int
  | .incExecutedInstructions ins => ins.toInt
  | _ => 0

/-- The sum of these numbers. -/
def countedBy : List DynamicTraceWriter.Call → Int
  | [] => 0
  | call :: calls => counted call + countedBy calls

/-- A writer given `records` and `total`. -/
structure Given (records : List DynamicTraceRecord) (total : Int) (w : DynamicTraceWriter) :
    Prop where
  holds : w.Holds DynamicTraceRecord.codec records
  total : w.header.totalExecutedInstructions = BitVec.ofInt 64 total

theorem call_given {records : List DynamicTraceRecord} {total : Int} {w : DynamicTraceWriter}
    (before : Given records total w) (call : DynamicTraceWriter.Call) :
    Given (records ++ (appended call).toList) (total + counted call) (w.call call) := by
  have added : ∀ r : DynamicTraceRecord,
      Given (records ++ [r]) (total + 0) (w.addDynamicRecord r).2 := by
    intro r
    obtain ⟨w', step, holds, header⟩ := before.holds.addRecord r
    rw [DynamicTraceWriter.addDynamicRecord, step, Int.add_zero]
    exact ⟨holds, by rw [header, before.total]⟩
  cases call with
  | addThreadEvent evType => exact added _
  | addBasicBlockId identifier => exact added _
  | incExecutedInstructions ins =>
    simp only [appended, Option.toList_none, List.append_nil, DynamicTraceWriter.call,
      DynamicTraceWriter.incExecutedInstructions]
    refine ⟨⟨before.holds.room, before.holds.written⟩, ?_⟩
    rw [FileHeader.totalExecutedInstructions_set, before.total, counted, BitVec.ofInt_add]
    rfl
  | setTargetArch target =>
    simp only [appended, counted, Option.toList_none, List.append_nil, Int.add_zero,
      DynamicTraceWriter.call, DynamicTraceWriter.setTargetArch]
    exact ⟨⟨before.holds.room, before.holds.written⟩, before.total⟩

theorem calls_given {records : List DynamicTraceRecord} {total : Int} {w : DynamicTraceWriter}
    (before : Given records total w) (calls : List DynamicTraceWriter.Call) :
    Given (records ++ calls.filterMap appended) (total + countedBy calls)
      (calls.foldl DynamicTraceWriter.call w) := by
  induction calls generalizing records total w with
  | nil => simpa [countedBy] using before
  | cons call calls ih =>
    have after := ih (call_given before call)
    rw [List.foldl_cons, countedBy, ← Int.add_assoc]
    cases kind : appended call with
    | none => simpa [kind] using after
    | some r => simpa [kind] using after

/-- For every list of records and events, and every instruction counts: a reader of the
file returns exactly the records, then the end for ever, and the counts' sum. -/
theorem dynamic_round_trip (calls : List DynamicTraceWriter.Call) :
    ∃ (file : File) (t : DynamicTraceFile), DynamicTraceWriter.write calls = some file ∧
      TraceFile.openFile file.content = some t ∧
      Returns (calls.filterMap appended) t ∧
      t.getTotalExecutedInstructions = BitVec.ofInt 64 (countedBy calls) ∧
      (0 ≤ countedBy calls → countedBy calls < 18446744073709551616 →
        (t.getTotalExecutedInstructions.toNat : Int) = countedBy calls) := by
  have start : Given [] 0 (TraceWriter.openFile DynamicTraceWriter.create) :=
    ⟨TraceWriter.holds_openFile _ _, by decide⟩
  have given := calls_given start calls
  rw [List.nil_append, Int.zero_add] at given
  obtain ⟨file, closed, content⟩ := given.holds.destroy
  obtain ⟨rest, opened, records⟩ := openFile_records DynamicTraceRecord.codec (by decide)
    (calls.foldl DynamicTraceWriter.call (TraceWriter.openFile DynamicTraceWriter.create)).header
    (calls.filterMap appended)
  rw [← content] at opened
  refine ⟨file, _, closed, opened, LeftToRead.returns ⟨⟨rfl, fun h => absurd rfl h⟩, records, rfl⟩,
    given.total, fun nonneg small => ?_⟩
  rw [TraceFile.getTotalExecutedInstructions, given.total, BitVec.toNat_ofInt]
  omega

section Memory

open MemoryTraceWriter

/-- The record `AddMemOp` makes. -/
def opRecord (op : MemOp) : MemoryTraceRecord :=
  { address := op.address, size := op.size.setWidth 16, recordType := if op.isLoadOp then 1 else 2 }

def groupRecords (ops : List MemOp) : List MemoryTraceRecord :=
  { address := (BitVec.ofNat 32 ops.length).setWidth 64, recordType := 0 } :: ops.map opRecord

/-- Address and size of the loads, or of the stores. -/
def opAccesses (isLoadOp : Bool) (ops : List MemOp) : List (BitVec 64 × BitVec 32) :=
  (ops.filter fun op => op.isLoadOp = isLoadOp).map fun op => (op.address, op.size)

/-- What an instruction can do to memory. -/
structure FitsPacket (ops : List MemOp) : Prop where
  loads_le : (opAccesses true ops).length ≤ maxMemOperations
  stores_le : (opAccesses false ops).length ≤ maxMemOperations
  sizes : ∀ op ∈ ops, op.size.toNat < 65536

theorem addMemOps_holds {records : List MemoryTraceRecord} {w : MemoryTraceWriter}
    (before : w.Holds MemoryTraceRecord.codec records) (ops : List MemOp) :
    TraceWriter.Holds MemoryTraceRecord.codec (records ++ ops.map opRecord)
      (ops.foldl (fun w op => (addMemOp w op.address op.size op.isLoadOp).2) w) := by
  induction ops generalizing records w with
  | nil => simpa using before
  | cons op ops ih =>
    obtain ⟨w', step, holds, _⟩ := before.addRecord (opRecord op)
    have added : (addMemOp w op.address op.size op.isLoadOp).2 = w' := congrArg Prod.snd step
    have after := ih holds
    rw [List.foldl_cons, added]
    simpa using after

theorem addGroups_holds {records : List MemoryTraceRecord} {w : MemoryTraceWriter}
    (before : w.Holds MemoryTraceRecord.codec records) (groups : List (List MemOp)) :
    TraceWriter.Holds MemoryTraceRecord.codec (records ++ groups.flatMap groupRecords)
      (groups.foldl addGroup w) := by
  induction groups generalizing records w with
  | nil => simpa using before
  | cons ops groups ih =>
    obtain ⟨w', step, holds, _⟩ := before.addRecord
      { address := (BitVec.ofNat 32 ops.length).setWidth 64, recordType := 0 }
    have added : (addNumberOfMemOperations w (BitVec.ofNat 32 ops.length)).2 = w' :=
      congrArg Prod.snd step
    have after := ih (addMemOps_holds holds ops)
    rw [List.foldl_cons, addGroup, added]
    simpa [groupRecords] using after

theorem getRecordType_opRecord (op : MemOp) :
    (opRecord op).getRecordType = if op.isLoadOp then .load else .store := by
  cases op with
  | mk address size isLoadOp => cases isLoadOp <;> rfl

/-- The records of one kind are the operations of that kind. -/
theorem accesses_opRecord (kind : Bool) (ops : List MemOp)
    (sizes : ∀ op ∈ ops, op.size.toNat < 65536) :
    MemoryGroup.accesses (if kind then .load else .store) (ops.map opRecord) =
      opAccesses kind ops := by
  induction ops with
  | nil => rfl
  | cons op ops ih =>
    have rest := ih fun other member => sizes other (List.mem_cons_of_mem op member)
    have size : (op.size.setWidth 16).setWidth 32 = op.size := by
      apply BitVec.eq_of_toNat_eq
      have small := sizes op (List.mem_cons_self ..)
      simp only [BitVec.toNat_setWidth]
      omega
    have type := getRecordType_opRecord op
    simp only [MemoryGroup.accesses, opAccesses, List.map_cons, List.filter_cons] at rest ⊢
    rcases op with ⟨address, bytes, isLoadOp⟩
    cases isLoadOp <;> cases kind <;>
      simp_all [opRecord]

theorem FitsPacket.length_le {ops : List MemOp} (fits : FitsPacket ops) : ops.length ≤ 32 := by
  have split := List.length_eq_length_filter_add (l := ops) (·.isLoadOp)
  have loads := fits.loads_le
  have stores := fits.stores_le
  simp only [opAccesses, List.length_map, Bool.decide_eq_true, Bool.decide_eq_false,
    maxMemOperations] at loads stores
  omega

/-- The group as the reader sees it. -/
def FitsPacket.group {ops : List MemOp} (fits : FitsPacket ops) : MemoryGroup where
  header := { address := (BitVec.ofNat 32 ops.length).setWidth 64, recordType := 0 }
  operations := ops.map opRecord
  is_header := rfl
  count := by
    have few := fits.length_le
    simp only [MemoryTraceRecord.numberOfMemoryOps, List.length_map]
    rw [BitVec.setWidth_setWidth_of_le _ (by decide), BitVec.setWidth_eq, BitVec.toInt_ofNat']
    simp only [Int.bmod_def]
    omega
  kinds := by
    intro r member
    obtain ⟨op, _, rfl⟩ := List.mem_map.mp member
    rw [getRecordType_opRecord]
    cases op.isLoadOp
    · exact .inr rfl
    · exact .inl rfl
  loads_le := by
    have loads := fits.loads_le
    rw [← accesses_opRecord true ops fits.sizes, MemoryGroup.accesses, List.length_map] at loads
    exact loads
  stores_le := by
    have stores := fits.stores_le
    rw [← accesses_opRecord false ops fits.sizes, MemoryGroup.accesses, List.length_map] at stores
    exact stores

theorem FitsPacket.records {ops : List MemOp} (fits : FitsPacket ops) :
    fits.group.records = groupRecords ops := rfl

/-- The packet of one call: exactly the group, its loads and its stores in order. -/
structure Yields (ops : List MemOp) (d : DynamicInstructionInfo) : Prop where
  numReadings : d.numReadings = (opAccesses true ops).length
  loads : d.loads = opAccesses true ops
  numWritings : d.numWritings = (opAccesses false ops).length
  stores : d.stores = opAccesses false ops

/-- A reader that has `groups` left to read. -/
structure LeftInMemory (groups : List (List MemOp)) (t : MemoryTraceFile) : Prop where
  consistent : t.memory.Consistent
  pending : t.memory.pending = groups.flatMap groupRecords
  running : t.reachedEnd = false

theorem readMemoryOperations_yields {ops : List MemOp} {groups : List (List MemOp)}
    {t : MemoryTraceFile} (before : LeftInMemory (ops :: groups) t) (fits : FitsPacket ops)
    (inst : InstructionPacket) (noReadings : inst.dynamicInfo.numReadings = 0)
    (noWritings : inst.dynamicInfo.numWritings = 0) :
    (t.readMemoryOperations inst).1 = false ∧
      Yields ops (t.readMemoryOperations inst).2.1.dynamicInfo ∧
      LeftInMemory groups (t.readMemoryOperations inst).2.2 := by
  have next : t.memory.pending = fits.group.records ++ groups.flatMap groupRecords := by
    rw [before.pending, List.flatMap_cons, fits.records]
  obtain ⟨inst', m, read, later, fresh, running, _, loads, stores, readings, writings⟩ :=
    MemoryTraceReader.readMemoryOperations_group t.memory inst fits.group _ before.consistent
      before.running next noReadings noWritings
  rw [MemoryTraceFile.memory_readMemoryOperations, Prod.mk.injEq, Prod.mk.injEq] at read
  obtain ⟨ok, rfl, rfl⟩ := read
  have sameLoads : fits.group.loads = opAccesses true ops :=
    accesses_opRecord true ops fits.sizes
  have sameStores : fits.group.stores = opAccesses false ops :=
    accesses_opRecord false ops fits.sizes
  rw [sameLoads] at loads readings
  rw [sameStores] at stores writings
  exact ⟨ok, ⟨readings, loads, writings, stores⟩, fresh, later, running⟩

theorem readTimes_leftInMemory {groups : List (List MemOp)} {t : MemoryTraceFile}
    (start : LeftInMemory groups t) (fits : ∀ ops ∈ groups, FitsPacket ops)
    (inst : Nat → InstructionPacket) (noReadings : ∀ k, (inst k).dynamicInfo.numReadings = 0)
    (noWritings : ∀ k, (inst k).dynamicInfo.numWritings = 0) (k : Nat)
    (within : k ≤ groups.length) : LeftInMemory (groups.drop k) (t.readTimes inst k) := by
  induction k with
  | zero => exact start
  | succ k ih =>
    have present : k < groups.length := within
    have before := ih (by omega)
    rw [List.drop_eq_getElem_cons present] at before
    exact (readMemoryOperations_yields before (fits _ (List.getElem_mem present)) (inst k)
      (noReadings k) (noWritings k)).2.2

/-- For every list of groups that fit a packet: the k-th read of the file, on a packet
with cleared counters, succeeds and yields the k-th group. -/
theorem memory_round_trip (groups : List (List MemOp)) (fits : ∀ ops ∈ groups, FitsPacket ops)
    (inst : Nat → InstructionPacket) (noReadings : ∀ k, (inst k).dynamicInfo.numReadings = 0)
    (noWritings : ∀ k, (inst k).dynamicInfo.numWritings = 0) :
    ∃ (file : File) (t : MemoryTraceFile), MemoryTraceWriter.write groups = some file ∧
      TraceFile.openFile file.content = some t ∧
      ∀ k (present : k < groups.length),
        ((t.readTimes inst k).readMemoryOperations (inst k)).1 = false ∧
          Yields groups[k] ((t.readTimes inst k).readMemoryOperations (inst k)).2.1.dynamicInfo := by
  have start : (TraceWriter.openFile MemoryTraceWriter.create).Holds MemoryTraceRecord.codec [] :=
    TraceWriter.holds_openFile _ _
  have holds := addGroups_holds start groups
  rw [List.nil_append] at holds
  obtain ⟨file, closed, content⟩ := holds.destroy
  obtain ⟨rest, opened, records⟩ := openFile_records MemoryTraceRecord.codec (by decide)
    (groups.foldl addGroup (TraceWriter.openFile MemoryTraceWriter.create)).header
    (groups.flatMap groupRecords)
  rw [← content] at opened
  refine ⟨file, _, closed, opened, fun k present => ?_⟩
  have start : LeftInMemory groups ({
      file := rest
      header := (groups.foldl addGroup (TraceWriter.openFile MemoryTraceWriter.create)).header
      recordArray := []
      numberOfRecordsRead := 0
      recordArrayIndex := 0
      reachedEnd := false } : MemoryTraceFile) :=
    ⟨⟨rfl, Nat.le_refl 0⟩, records, rfl⟩
  have before := readTimes_leftInMemory start fits inst noReadings noWritings k
    (Nat.le_of_lt present)
  rw [List.drop_eq_getElem_cons present] at before
  obtain ⟨ok, yields, _⟩ := readMemoryOperations_yields before
    (fits _ (List.getElem_mem present)) (inst k) (noReadings k) (noWritings k)
  exact ⟨ok, yields⟩

/-- A load of eight octets and a store of four, then nothing. -/
def loadStoreGroups : List (List MemOp) := [[⟨64, 8, true⟩, ⟨128, 4, false⟩], []]

theorem memory_round_trip_loadStore :
    ∃ (file : File) (t : MemoryTraceFile), MemoryTraceWriter.write loadStoreGroups = some file ∧
      TraceFile.openFile file.content = some t ∧
      ∀ k (present : k < 2),
        ((t.readTimes (fun _ => {}) k).readMemoryOperations {}).1 = false ∧
          Yields loadStoreGroups[k]
            ((t.readTimes (fun _ => {}) k).readMemoryOperations {}).2.1.dynamicInfo :=
  memory_round_trip loadStoreGroups
    (by
      intro ops member
      simp only [loadStoreGroups, List.mem_cons, List.not_mem_nil, or_false] at member
      rcases member with rfl | rfl
      · exact ⟨by decide, by decide, by decide⟩
      · exact ⟨by decide, by decide, by decide⟩)
    (fun _ => {}) (fun _ => rfl) (fun _ => rfl)

end Memory

end Sinuca3.Guarantees
