import Mathlib.Data.List.Basic
import Sinuca3.Source.Tracer.FileHandler

/-!
# Dynamic trace reader

`tracer/sinuca/utils/dynamic_trace_reader.cpp`. The reader refills its record
array a chunk at a time. `pending` is the list of records it has not handed out,
wherever they are; `readDynamicRecord_cons` and `readDynamicRecord_nil` say that
reading takes the first of them, chunk boundaries included.
-/
namespace Sinuca3.Source

structure DynamicTraceReader where
  /-- Records `fread` has not returned yet. -/
  file : List DynamicTraceRecord
  recordArray : List DynamicTraceRecord
  numberOfRecordsRead : Nat
  recordArrayIndex : Nat
  reachedEnd : Bool

namespace DynamicTraceReader

/-- A reader just opened; the constructor leaves `recordArrayIndex` to the first
read. -/
def openFile (records : List DynamicTraceRecord) : DynamicTraceReader where
  file := records
  recordArray := []
  numberOfRecordsRead := 0
  recordArrayIndex := 0
  reachedEnd := false

/-- Non-zero return codes are `true` here and below. -/
def loadRecordArray (d : DynamicTraceReader) : Bool × DynamicTraceReader :=
  let chunk := d.file.take recordArraySize
  (chunk.length == 0,
    { d with
      file := d.file.drop recordArraySize
      recordArray := chunk
      numberOfRecordsRead := chunk.length
      recordArrayIndex := 0 })

def readDynamicRecord (d : DynamicTraceReader) : Bool × DynamicTraceReader :=
  if d.reachedEnd then (true, d)
  else
    let d := { d with
      recordArrayIndex := if d.numberOfRecordsRead = 0 then 0 else d.recordArrayIndex + 1 }
    if d.recordArrayIndex = d.numberOfRecordsRead then
      let (failed, d) := d.loadRecordArray
      if failed then (true, { d with reachedEnd := true }) else (false, d)
    else (false, d)

def hasReachedEnd (d : DynamicTraceReader) : Bool := d.reachedEnd

/-- The record the getters look at. -/
def current (d : DynamicTraceReader) : DynamicTraceRecord :=
  d.recordArray.getD d.recordArrayIndex default

/-- The counters describe the array. -/
structure Consistent (d : DynamicTraceReader) : Prop where
  count : d.numberOfRecordsRead = d.recordArray.length
  index : d.numberOfRecordsRead ≠ 0 → d.recordArrayIndex < d.numberOfRecordsRead

/-- Records not handed out yet. -/
def pending (d : DynamicTraceReader) : List DynamicTraceRecord :=
  (if d.numberOfRecordsRead = 0 then [] else d.recordArray.drop (d.recordArrayIndex + 1)) ++ d.file

theorem consistent_openFile (records : List DynamicTraceRecord) :
    (openFile records).Consistent := ⟨rfl, fun h => absurd rfl h⟩

@[simp] theorem pending_openFile (records : List DynamicTraceRecord) :
    (openFile records).pending = records := rfl

@[simp] theorem reachedEnd_openFile (records : List DynamicTraceRecord) :
    (openFile records).reachedEnd = false := rfl

theorem readDynamicRecord_ended (d : DynamicTraceReader) (ended : d.reachedEnd = true) :
    d.readDynamicRecord = (true, d) := by
  simp [readDynamicRecord, ended]

/-- A refill hands out the first record of the file, or finds none. -/
theorem loadRecordArray_eq (d : DynamicTraceReader) :
    (d.file = [] ∧ d.loadRecordArray.1 = true ∧ d.loadRecordArray.2.pending = [] ∧
      d.loadRecordArray.2.Consistent) ∨
    (∃ r rest, d.file = r :: rest ∧ d.loadRecordArray.1 = false ∧
      d.loadRecordArray.2.current = r ∧ d.loadRecordArray.2.pending = rest ∧
      d.loadRecordArray.2.Consistent) := by
  have consistent : d.loadRecordArray.2.Consistent :=
    ⟨rfl, fun nonempty => Nat.pos_of_ne_zero nonempty⟩
  cases split : d.file with
  | nil =>
    refine Or.inl ⟨rfl, ?_, ?_, consistent⟩
    · simp [loadRecordArray, split]
    · simp [loadRecordArray, pending, split]
  | cons r rest =>
    obtain ⟨n, size⟩ := Nat.exists_eq_succ_of_ne_zero (Nat.ne_of_gt recordArraySize_pos)
    refine Or.inr ⟨r, rest, rfl, ?_, ?_, ?_, consistent⟩
    · simp [loadRecordArray, split, size]
    · simp [loadRecordArray, split, size, current]
    · simp [loadRecordArray, split, size, pending]

/-- Once the array is used up, everything pending is in the file. -/
theorem pending_of_used_up (d : DynamicTraceReader) (consistent : d.Consistent)
    (used : (if d.numberOfRecordsRead = 0 then 0 else d.recordArrayIndex + 1) =
      d.numberOfRecordsRead) : d.pending = d.file := by
  unfold pending
  split
  · simp
  · rename_i some_read
    rw [if_neg some_read, consistent.count] at used
    simp [used]

theorem readDynamicRecord_used_up (d : DynamicTraceReader) (running : d.reachedEnd = false)
    (used : (if d.numberOfRecordsRead = 0 then 0 else d.recordArrayIndex + 1) =
      d.numberOfRecordsRead) :
    d.readDynamicRecord =
      if d.loadRecordArray.1 then (true, { d.loadRecordArray.2 with reachedEnd := true })
      else (false, d.loadRecordArray.2) := by
  unfold readDynamicRecord
  rw [if_neg (by simp [running])]
  dsimp only
  rw [if_pos used]
  rfl

/-- A successful read hands out the first pending record. -/
theorem readDynamicRecord_cons (d : DynamicTraceReader) (consistent : d.Consistent)
    (running : d.reachedEnd = false) (r : DynamicTraceRecord) (rest : List DynamicTraceRecord)
    (next : d.pending = r :: rest) :
    ∃ d', d.readDynamicRecord = (false, d') ∧ d'.current = r ∧ d'.pending = rest ∧
      d'.Consistent ∧ d'.reachedEnd = false := by
  by_cases used : (if d.numberOfRecordsRead = 0 then 0 else d.recordArrayIndex + 1) =
      d.numberOfRecordsRead
  · rw [pending_of_used_up d consistent used] at next
    rw [readDynamicRecord_used_up d running used]
    rcases d.loadRecordArray_eq with ⟨empty, _⟩ | ⟨r', rest', split, ok, first, later, fresh⟩
    · simp [empty] at next
    · obtain ⟨rfl, rfl⟩ : r' = r ∧ rest' = rest := by simpa [split] using next
      exact ⟨_, by rw [if_neg (by simp [ok])], first, later, fresh, running⟩
  · have some_read : d.numberOfRecordsRead ≠ 0 := by
      intro none_read
      simp [none_read] at used
    have inside : d.recordArrayIndex + 1 < d.recordArray.length := by
      have := consistent.index some_read
      rw [if_neg some_read] at used
      rw [← consistent.count]
      omega
    rw [pending, if_neg some_read, List.drop_eq_getElem_cons inside, List.cons_append,
      List.cons.injEq] at next
    refine ⟨{ d with recordArrayIndex := d.recordArrayIndex + 1 }, ?_, ?_, ?_, ?_, running⟩
    · unfold readDynamicRecord
      rw [if_neg (by simp [running])]
      dsimp only
      rw [if_neg used, if_neg some_read]
    · simp [current, inside, next.1]
    · simpa [pending, some_read] using next.2
    · exact ⟨consistent.count, fun _ => by simpa [consistent.count] using inside⟩

/-- With nothing pending the read fails and the end is noticed. -/
theorem readDynamicRecord_nil (d : DynamicTraceReader) (consistent : d.Consistent)
    (running : d.reachedEnd = false) (done : d.pending = []) :
    ∃ d', d.readDynamicRecord = (true, d') ∧ d'.pending = [] ∧ d'.Consistent ∧
      d'.reachedEnd = true := by
  by_cases used : (if d.numberOfRecordsRead = 0 then 0 else d.recordArrayIndex + 1) =
      d.numberOfRecordsRead
  · rw [pending_of_used_up d consistent used] at done
    rw [readDynamicRecord_used_up d running used]
    rcases d.loadRecordArray_eq with ⟨_, failed, empty, fresh⟩ | ⟨r, rest, split, _⟩
    · exact ⟨{ d.loadRecordArray.2 with reachedEnd := true }, by rw [if_pos failed], empty,
        ⟨fresh.count, fresh.index⟩, rfl⟩
    · simp [split] at done
  · have some_read : d.numberOfRecordsRead ≠ 0 := by
      intro none_read
      simp [none_read] at used
    have index := consistent.index some_read
    rw [pending, if_neg some_read, List.append_eq_nil_iff, List.drop_eq_nil_iff,
      ← consistent.count] at done
    rw [if_neg some_read] at used
    omega

end DynamicTraceReader

end Sinuca3.Source
