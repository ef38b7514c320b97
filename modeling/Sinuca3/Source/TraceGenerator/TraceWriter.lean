import Sinuca3.Source.Tracer.FileHeader

/-!
# Dynamic and memory trace writers

`x86_trace_generator/utils/dynamic_trace_writer.cpp` and `memory_trace_writer.cpp`
are one writer of records with two record types: what they share is `TraceWriter`,
with the codec as a parameter. `Holds` is what a writer has been given so far, in
its file or in its array.
-/
namespace Sinuca3.Source
open Lib

structure TraceWriter (α : Type) where
  file : Option File := none
  header : FileHeader
  recordArray : Nat → α
  recordArrayOccupation : Nat := 0

namespace TraceWriter

variable {α : Type}

/-- The constructor of the writer of one file type; records are zero octets. -/
def create [Inhabited α] (fileType : BitVec 8) : TraceWriter α where
  header := FileHeader.create.setHeaderType fileType
  recordArray := fun _ => default

/-- `fopen` in the mode `wb`. -/
def openFile (w : TraceWriter α) : TraceWriter α :=
  { w with file := some (FileHeader.reserveHeaderSpace {}) }

def resetRecordArray (w : TraceWriter α) : TraceWriter α := { w with recordArrayOccupation := 0 }

def isRecordArrayEmpty (w : TraceWriter α) : Bool := w.recordArrayOccupation ≤ 0

def isRecordArrayFull (w : TraceWriter α) : Bool := w.recordArrayOccupation = recordArraySize

/-- The records in the array. -/
def buffered (w : TraceWriter α) : List α :=
  (List.range w.recordArrayOccupation).map w.recordArray

/-- Non-zero return codes are `true` here and below. -/
def flushRecordArray (c : Codec α) (w : TraceWriter α) : Bool × TraceWriter α :=
  match w.file with
  | none => (true, w)
  | some file => (false, { w with file := some (file.fwrite (w.buffered.flatMap c.encode)) })

def checkRecordArray (c : Codec α) (w : TraceWriter α) : Bool × TraceWriter α :=
  if w.isRecordArrayFull then
    match w.flushRecordArray c with
    | (true, w) => (true, w)
    | (false, w) => (false, w.resetRecordArray)
  else (false, w)

def addRecord (c : Codec α) (w : TraceWriter α) (record : α) : Bool × TraceWriter α :=
  let w := { w with recordArray := Function.update w.recordArray w.recordArrayOccupation record }
  let w := { w with recordArrayOccupation := w.recordArrayOccupation + 1 }
  w.checkRecordArray c

/-- The destructor: the file it closes, if there is one. -/
def destroy (c : Codec α) (w : TraceWriter α) : Option File :=
  let w := if w.isRecordArrayEmpty then w else (w.flushRecordArray c).2
  (w.header.flushHeader w.file).2

/-- The records given to an opened writer. -/
structure Holds (c : Codec α) (records : List α) (w : TraceWriter α) : Prop where
  room : w.recordArrayOccupation < recordArraySize
  written : ∃ file flushed, w.file = some file ∧ records = flushed ++ w.buffered ∧
    File.Reserved FileHeader.codec.width (flushed.flatMap c.encode) file

theorem holds_openFile [Inhabited α] (c : Codec α) (fileType : BitVec 8) :
    Holds c [] (create fileType : TraceWriter α).openFile :=
  ⟨recordArraySize_pos, _, [], rfl, rfl, File.reserved_fseek _⟩

theorem Holds.flush {c : Codec α} {records : List α} {w : TraceWriter α}
    (before : Holds c records w) :
    ∃ file, w.flushRecordArray c = (false, { w with file := some file }) ∧
      File.Reserved FileHeader.codec.width (records.flatMap c.encode) file := by
  obtain ⟨file, flushed, opened, all, reserved⟩ := before.written
  refine ⟨file.fwrite (w.buffered.flatMap c.encode), ?_, ?_⟩
  · rw [flushRecordArray, opened]
  · rw [all, List.flatMap_append]
    exact reserved.fwrite _

theorem buffered_add (w : TraceWriter α) (record : α) :
    buffered { w with
      recordArray := Function.update w.recordArray w.recordArrayOccupation record
      recordArrayOccupation := w.recordArrayOccupation + 1 } = w.buffered ++ [record] := by
  have kept : (List.range w.recordArrayOccupation).map
      (Function.update w.recordArray w.recordArrayOccupation record) = w.buffered := by
    refine List.map_congr_left fun i member => ?_
    have other : i ≠ w.recordArrayOccupation := by
      rw [List.mem_range] at member
      omega
    rw [Function.update_of_ne other]
  simp only [buffered, List.range_succ, List.map_append, List.map_cons, List.map_nil,
    Function.update_self]
  rw [kept]
  rfl

/-- A record is added, whether or not it fills the array. -/
theorem Holds.addRecord {c : Codec α} {records : List α} {w : TraceWriter α}
    (before : Holds c records w) (record : α) :
    ∃ w', w.addRecord c record = (false, w') ∧ Holds c (records ++ [record]) w' ∧
      w'.header = w.header := by
  obtain ⟨room, file, flushed, opened, all, reserved⟩ := before
  have added := w.buffered_add record
  generalize same : ({ w with
    recordArray := Function.update w.recordArray w.recordArrayOccupation record
    recordArrayOccupation := w.recordArrayOccupation + 1 } : TraceWriter α) = w' at added
  have step : w.addRecord c record = w'.checkRecordArray c := by rw [← same]; rfl
  have opened' : w'.file = some file := by rw [← same]; exact opened
  have header : w'.header = w.header := by rw [← same]
  have count : w'.recordArrayOccupation = w.recordArrayOccupation + 1 := by rw [← same]
  have all' : records ++ [record] = flushed ++ w'.buffered := by
    rw [added, all, List.append_assoc]
  rw [step, checkRecordArray]
  by_cases full : w'.recordArrayOccupation = recordArraySize
  · refine ⟨{ w' with
      file := some (file.fwrite (w'.buffered.flatMap c.encode))
      recordArrayOccupation := 0 }, ?_, ⟨recordArraySize_pos, _, records ++ [record], rfl, ?_, ?_⟩,
      header⟩
    · rw [if_pos (by simpa [isRecordArrayFull] using full), flushRecordArray, opened']
      rfl
    · simp [buffered]
    · rw [all', List.flatMap_append]
      exact reserved.fwrite _
  · refine ⟨w', ?_, ⟨by omega, file, flushed, opened', all', reserved⟩, header⟩
    rw [if_neg (by simpa [isRecordArrayFull] using full)]

/-- What the destructor leaves: the header, then every record. -/
theorem Holds.destroy {c : Codec α} {records : List α} {w : TraceWriter α}
    (before : Holds c records w) :
    ∃ file, w.destroy c = some file ∧
      file.content = FileHeader.codec.encode w.header ++ records.flatMap c.encode := by
  unfold TraceWriter.destroy
  by_cases empty : w.recordArrayOccupation ≤ 0
  · rw [if_pos (by simpa [isRecordArrayEmpty] using empty)]
    obtain ⟨file, flushed, opened, all, reserved⟩ := before.written
    have none : w.buffered = [] := by
      rw [buffered, Nat.le_zero.mp empty]
      rfl
    rw [none, List.append_nil] at all
    rw [← all] at reserved
    obtain ⟨f, flush, content⟩ := w.header.flushHeader_reserved reserved
    exact ⟨f, by dsimp only; rw [opened, flush], content⟩
  · rw [if_neg (by simpa [isRecordArrayEmpty] using empty)]
    obtain ⟨file, flushed, reserved⟩ := before.flush
    obtain ⟨f, flush, content⟩ := w.header.flushHeader_reserved reserved
    exact ⟨f, by rw [flushed]; dsimp only; rw [flush], content⟩

end TraceWriter

abbrev DynamicTraceWriter : Type := TraceWriter DynamicTraceRecord

namespace DynamicTraceWriter

def create : DynamicTraceWriter := TraceWriter.create fileTypeDynamicTrace

def addDynamicRecord (w : DynamicTraceWriter) (record : DynamicTraceRecord) :
    Bool × DynamicTraceWriter := w.addRecord DynamicTraceRecord.codec record

def addThreadEvent (w : DynamicTraceWriter) (evType : BitVec 32) : Bool × DynamicTraceWriter :=
  let record : DynamicTraceRecord := { data := evType, recordType := 1 }
  addDynamicRecord w record

def addBasicBlockId (w : DynamicTraceWriter) (identifier : BitVec 32) :
    Bool × DynamicTraceWriter :=
  let record : DynamicTraceRecord := { data := identifier, recordType := 0 }
  addDynamicRecord w record

/-- `ins` is an `int`. -/
def incExecutedInstructions (w : DynamicTraceWriter) (ins : BitVec 32) : DynamicTraceWriter :=
  let total := w.header.totalExecutedInstructions + ins.signExtend 64
  { w with header := w.header.setTotalExecutedInstructions total }

def setTargetArch (w : DynamicTraceWriter) (target : BitVec 8) : DynamicTraceWriter :=
  { w with header := { w.header with targetArch := target } }

/-- What a tracer may do with an opened writer. -/
inductive Call where
  | addThreadEvent (evType : BitVec 32)
  | addBasicBlockId (identifier : BitVec 32)
  | incExecutedInstructions (ins : BitVec 32)
  | setTargetArch (target : BitVec 8)

def call (w : DynamicTraceWriter) : Call → DynamicTraceWriter
  | .addThreadEvent evType => (addThreadEvent w evType).2
  | .addBasicBlockId identifier => (addBasicBlockId w identifier).2
  | .incExecutedInstructions ins => incExecutedInstructions w ins
  | .setTargetArch target => setTargetArch w target

/-- The file of a writer that was opened, used and destroyed. -/
def write (calls : List Call) : Option File :=
  TraceWriter.destroy DynamicTraceRecord.codec (calls.foldl call (TraceWriter.openFile create))

end DynamicTraceWriter

abbrev MemoryTraceWriter : Type := TraceWriter MemoryTraceRecord

namespace MemoryTraceWriter

def create : MemoryTraceWriter := TraceWriter.create fileTypeMemoryTrace

def addMemoryRecord (w : MemoryTraceWriter) (record : MemoryTraceRecord) :
    Bool × MemoryTraceWriter := w.addRecord MemoryTraceRecord.codec record

/-- The count goes to the low octets of a record of zeros. -/
def addNumberOfMemOperations (w : MemoryTraceWriter) (numMemOps : BitVec 32) :
    Bool × MemoryTraceWriter :=
  let record : MemoryTraceRecord := { address := numMemOps.setWidth 64, recordType := 0 }
  addMemoryRecord w record

/-- `size` is cut to the 16 bits of the record. -/
def addMemOp (w : MemoryTraceWriter) (address : BitVec 64) (size : BitVec 32) (isLoadOp : Bool) :
    Bool × MemoryTraceWriter :=
  let record : MemoryTraceRecord :=
    { address := address, size := size.setWidth 16, recordType := if isLoadOp then 1 else 2 }
  addMemoryRecord w record

/-- The arguments of a call of `AddMemOp`. -/
structure MemOp where
  address : BitVec 64
  size : BitVec 32
  isLoadOp : Bool

/-- `AppendToMemTrace` for one instruction. -/
def addGroup (w : MemoryTraceWriter) (ops : List MemOp) : MemoryTraceWriter :=
  ops.foldl (fun w op => (addMemOp w op.address op.size op.isLoadOp).2)
    (addNumberOfMemOperations w (BitVec.ofNat 32 ops.length)).2

/-- The file of a writer that was opened, used and destroyed. -/
def write (groups : List (List MemOp)) : Option File :=
  TraceWriter.destroy MemoryTraceRecord.codec
    (groups.foldl addGroup (TraceWriter.openFile create))

end MemoryTraceWriter

end Sinuca3.Source
