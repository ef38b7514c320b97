import Sinuca3.Source.Tracer.DynamicTraceReader
import Sinuca3.Source.Tracer.FileHeader
import Sinuca3.Source.Tracer.MemoryTraceReader

/-!
# Trace readers over the octets of their files

The readers of `tracer/sinuca/utils`, from the octets on. A reader over decoded
records does the same: `dynamic` and `memory` decode what is left in the file, and
every operation commutes with them.
-/
namespace Sinuca3.Source
open Lib

/-- The fields the two readers share. -/
structure TraceFile (α : Type) where
  file : File
  header : FileHeader
  recordArray : List α
  numberOfRecordsRead : Nat
  recordArrayIndex : Nat
  reachedEnd : Bool

namespace TraceFile

variable {α : Type}

/-- `none` when the header is cut short. -/
def openFile (octets : List Byte) : Option (TraceFile α) :=
  match FileHeader.loadHeader { content := octets } with
  | none => none
  | some (header, file) =>
    some {
      file := file
      header := header
      recordArray := []
      numberOfRecordsRead := 0
      recordArrayIndex := 0
      reachedEnd := false }

def loadRecordArray (c : Codec α) (t : TraceFile α) : Bool × TraceFile α :=
  let read := t.file.fread (recordArraySize * c.width)
  let readBytes := read.1.length
  (readBytes / c.width == 0,
    { t with
      file := read.2
      recordArray := c.records read.1
      numberOfRecordsRead := readBytes / c.width
      recordArrayIndex := 0 })

/-- The record the index points to. -/
def current [Inhabited α] (t : TraceFile α) : α := t.recordArray.getD t.recordArrayIndex default

def markEnd (t : TraceFile α) : TraceFile α := { t with reachedEnd := true }

def getTotalExecutedInstructions (t : TraceFile α) : BitVec 64 :=
  t.header.totalExecutedInstructions

def hasReachedEnd (t : TraceFile α) : Bool := t.reachedEnd

end TraceFile

abbrev DynamicTraceFile : Type := TraceFile DynamicTraceRecord

namespace DynamicTraceFile

def readDynamicRecord (t : DynamicTraceFile) : Bool × DynamicTraceFile :=
  if t.reachedEnd then (true, t)
  else
    let t := { t with
      recordArrayIndex := if t.numberOfRecordsRead = 0 then 0 else t.recordArrayIndex + 1 }
    if t.recordArrayIndex = t.numberOfRecordsRead then
      match t.loadRecordArray DynamicTraceRecord.codec with
      | (true, t) => (true, t.markEnd)
      | (false, t) => (false, t)
    else (false, t)

/-- After `n` calls of `ReadDynamicRecord`. -/
def readTimes : Nat → DynamicTraceFile → DynamicTraceFile
  | 0, t => t
  | n + 1, t => (readDynamicRecord (readTimes n t)).2

/-- The reader over decoded records. -/
def dynamic (t : DynamicTraceFile) : DynamicTraceReader where
  file := DynamicTraceRecord.codec.records t.file.remaining
  recordArray := t.recordArray
  numberOfRecordsRead := t.numberOfRecordsRead
  recordArrayIndex := t.recordArrayIndex
  reachedEnd := t.reachedEnd

@[simp] theorem numberOfRecordsRead_dynamic (t : DynamicTraceFile) :
    (dynamic t).numberOfRecordsRead = t.numberOfRecordsRead := rfl

@[simp] theorem recordArrayIndex_dynamic (t : DynamicTraceFile) :
    (dynamic t).recordArrayIndex = t.recordArrayIndex := rfl

@[simp] theorem reachedEnd_dynamic (t : DynamicTraceFile) :
    (dynamic t).reachedEnd = t.reachedEnd := rfl

@[simp] theorem current_dynamic (t : DynamicTraceFile) : (dynamic t).current = t.current := rfl

theorem dynamic_loadRecordArray (t : DynamicTraceFile) :
    (dynamic t).loadRecordArray =
      ((t.loadRecordArray DynamicTraceRecord.codec).1,
        dynamic (t.loadRecordArray DynamicTraceRecord.codec).2) := by
  obtain ⟨chunk, rest⟩ :=
    DynamicTraceRecord.codec.records_fread (by decide) t.file recordArraySize
  have count := DynamicTraceRecord.codec.length_records
    (t.file.fread (recordArraySize * DynamicTraceRecord.codec.width)).1
  simp only [DynamicTraceReader.loadRecordArray, dynamic, TraceFile.loadRecordArray]
  rw [← chunk, ← rest, ← count]

theorem dynamic_readDynamicRecord (t : DynamicTraceFile) :
    (dynamic t).readDynamicRecord =
      ((readDynamicRecord t).1, dynamic (readDynamicRecord t).2) := by
  by_cases ended : t.reachedEnd = true
  · rw [DynamicTraceReader.readDynamicRecord_ended _ ended, readDynamicRecord, if_pos ended]
  · have running : (dynamic t).reachedEnd = false := by simpa using ended
    unfold readDynamicRecord
    rw [if_neg ended]
    dsimp only
    by_cases used : (if t.numberOfRecordsRead = 0 then 0 else t.recordArrayIndex + 1) =
        t.numberOfRecordsRead
    · rw [DynamicTraceReader.readDynamicRecord_used_up _ running used, if_pos used,
        dynamic_loadRecordArray]
      -- The refill does not look at the index.
      change _ = ((match t.loadRecordArray DynamicTraceRecord.codec with
        | (true, t) => (true, t.markEnd)
        | (false, t) => (false, t)).1, dynamic (match t.loadRecordArray DynamicTraceRecord.codec with
        | (true, t) => (true, t.markEnd)
        | (false, t) => (false, t)).2)
      rcases t.loadRecordArray DynamicTraceRecord.codec with ⟨failed, u⟩
      cases failed <;> rfl
    · rw [if_neg used, DynamicTraceReader.readDynamicRecord, if_neg (by simpa using ended)]
      dsimp only
      rw [numberOfRecordsRead_dynamic, recordArrayIndex_dynamic, if_neg used]
      rfl

end DynamicTraceFile

abbrev MemoryTraceFile : Type := TraceFile MemoryTraceRecord

namespace MemoryTraceFile

def refill (t : MemoryTraceFile) : Bool × MemoryTraceFile :=
  if t.recordArrayIndex = t.numberOfRecordsRead then t.loadRecordArray MemoryTraceRecord.codec
  else (false, t)

def advance (t : MemoryTraceFile) : MemoryTraceFile :=
  { t with recordArrayIndex := t.recordArrayIndex + 1 }

def readOperations :
    Nat → MemoryTraceFile → InstructionPacket → Bool × InstructionPacket × MemoryTraceFile
  | 0, t, inst => (false, inst, t)
  | n + 1, t, inst =>
    match refill t with
    | (true, t) => (true, inst, t.markEnd)
    | (false, t) =>
      let record := t.current
      match record.getRecordType with
      | .load =>
        readOperations n (advance t)
          { inst with dynamicInfo := inst.dynamicInfo.pushLoad record.address record.size }
      | .store =>
        readOperations n (advance t)
          { inst with dynamicInfo := inst.dynamicInfo.pushStore record.address record.size }
      | _ => (true, inst, t)

def readMemoryOperations (t : MemoryTraceFile) (inst : InstructionPacket) :
    Bool × InstructionPacket × MemoryTraceFile :=
  if t.reachedEnd then (true, inst, t)
  else
    match refill t with
    | (true, t) => (true, inst, t.markEnd)
    | (false, t) =>
      if t.current.getRecordType ≠ .header then (true, inst, t)
      else
        let totalMemOps := t.current.numberOfMemoryOps
        readOperations totalMemOps.toNat (advance t) inst

/-- After the calls on the packets `inst 0`, …, `inst (n - 1)`. -/
def readTimes (inst : Nat → InstructionPacket) : Nat → MemoryTraceFile → MemoryTraceFile
  | 0, t => t
  | n + 1, t => (readMemoryOperations (readTimes inst n t) (inst n)).2.2

/-- The reader over decoded records. -/
def memory (t : MemoryTraceFile) : MemoryTraceReader where
  file := MemoryTraceRecord.codec.records t.file.remaining
  recordArray := t.recordArray
  numberOfRecordsRead := t.numberOfRecordsRead
  recordArrayIndex := t.recordArrayIndex
  reachedEnd := t.reachedEnd

@[simp] theorem numberOfRecordsRead_memory (t : MemoryTraceFile) :
    (memory t).numberOfRecordsRead = t.numberOfRecordsRead := rfl

@[simp] theorem recordArrayIndex_memory (t : MemoryTraceFile) :
    (memory t).recordArrayIndex = t.recordArrayIndex := rfl

@[simp] theorem reachedEnd_memory (t : MemoryTraceFile) :
    (memory t).reachedEnd = t.reachedEnd := rfl

@[simp] theorem current_memory (t : MemoryTraceFile) : (memory t).current = t.current := rfl

theorem memory_refill (t : MemoryTraceFile) :
    (memory t).refill = ((refill t).1, memory (refill t).2) := by
  unfold MemoryTraceReader.refill refill
  rw [recordArrayIndex_memory, numberOfRecordsRead_memory]
  by_cases used : t.recordArrayIndex = t.numberOfRecordsRead
  · obtain ⟨chunk, rest⟩ :=
      MemoryTraceRecord.codec.records_fread (by decide) t.file recordArraySize
    have count := MemoryTraceRecord.codec.length_records
      (t.file.fread (recordArraySize * MemoryTraceRecord.codec.width)).1
    rw [if_pos used, if_pos used]
    simp only [MemoryTraceReader.loadRecordArray, memory, TraceFile.loadRecordArray]
    rw [← chunk, ← rest, ← count]
  · rw [if_neg used, if_neg used]

theorem memory_readOperations (n : Nat) (t : MemoryTraceFile) (inst : InstructionPacket) :
    (memory t).readOperations n inst =
      ((readOperations n t inst).1, (readOperations n t inst).2.1,
        memory (readOperations n t inst).2.2) := by
  induction n generalizing t inst with
  | zero => rfl
  | succ n ih =>
    rw [MemoryTraceReader.readOperations, readOperations, memory_refill]
    rcases refill t with ⟨failed, u⟩
    cases failed with
    | true => rfl
    | false =>
      dsimp only
      rw [current_memory]
      cases u.current.getRecordType with
      | header => rfl
      | load => exact ih (advance u) _
      | store => exact ih (advance u) _
      | unknown => rfl

theorem memory_readMemoryOperations (t : MemoryTraceFile) (inst : InstructionPacket) :
    (memory t).readMemoryOperations inst =
      ((readMemoryOperations t inst).1, (readMemoryOperations t inst).2.1,
        memory (readMemoryOperations t inst).2.2) := by
  unfold MemoryTraceReader.readMemoryOperations readMemoryOperations
  by_cases ended : t.reachedEnd = true
  · rw [reachedEnd_memory, if_pos ended, if_pos ended]
  · rw [reachedEnd_memory, if_neg ended, if_neg ended, memory_refill]
    rcases refill t with ⟨failed, u⟩
    cases failed with
    | true => rfl
    | false =>
      dsimp only
      rw [current_memory]
      by_cases header : u.current.getRecordType ≠ .header
      · rw [if_pos header, if_pos header]
      · rw [if_neg header, if_neg header]
        exact memory_readOperations _ (advance u) inst

end MemoryTraceFile

end Sinuca3.Source
