import Sinuca3.Source.TraceGenerator.TraceWriter

/-!
# Flushes that fail

The trace writers where `fwrite` may take less than it is given: `accepts k` is how many
octets the file takes in the `k`-th flush. A flush fails where that is not all of them, or
where there is no file. With a file that takes everything these are the functions of
`TraceWriter`.
-/
namespace Sinuca3.Source
open Lib

namespace TraceWriter

variable {α : Type}

/-- `FlushRecordArray`; `fwrite` returns how much it took. -/
def flushRecordArrayTo (c : Codec α) (accepted : Nat) (w : TraceWriter α) :
    Bool × TraceWriter α :=
  match w.file with
  | none => (true, w)
  | some file =>
    let occupationInBytes := w.recordArrayOccupation * c.width
    let written := min accepted occupationInBytes
    (written ≠ occupationInBytes,
      { w with file := some (file.fwrite ((w.buffered.flatMap c.encode).take written)) })

/-- What a flush decides, and that it moves nothing but the file. -/
theorem flushRecordArrayTo_eq (c : Codec α) (accepted : Nat) (w : TraceWriter α) :
    ∃ file, file.isSome = w.file.isSome ∧
      w.flushRecordArrayTo c accepted =
        (!decide (w.file.isSome ∧ w.recordArrayOccupation * c.width ≤ accepted),
          { w with file := file }) := by
  unfold flushRecordArrayTo
  cases opened : w.file with
  | none =>
    refine ⟨none, rfl, ?_⟩
    obtain ⟨_, header, recordArray, recordArrayOccupation⟩ := w
    cases opened
    rfl
  | some file =>
    refine ⟨some (file.fwrite ((w.buffered.flatMap c.encode).take
      (min accepted (w.recordArrayOccupation * c.width)))), rfl, ?_⟩
    refine Prod.ext ?_ rfl
    simp only [Option.isSome_some, true_and, ← decide_not, decide_eq_decide]
    omega

end TraceWriter

/-- A writer, and how often it has called `FlushRecordArray`. -/
structure FlushingWriter (α : Type) where
  writer : TraceWriter α
  flushes : Nat := 0

namespace FlushingWriter

variable {α : Type} (c : Codec α) (accepts : Nat → Nat)

def checkRecordArray (w : FlushingWriter α) : Bool × FlushingWriter α :=
  if w.writer.isRecordArrayFull then
    match w.writer.flushRecordArrayTo c (accepts w.flushes) with
    | (true, writer) => (true, ⟨writer, w.flushes + 1⟩)
    | (false, writer) => (false, ⟨writer.resetRecordArray, w.flushes + 1⟩)
  else (false, w)

def addRecord (w : FlushingWriter α) (record : α) : Bool × FlushingWriter α :=
  let array := Function.update w.writer.recordArray w.writer.recordArrayOccupation record
  let w := { w with writer.recordArray := array }
  let w := { w with writer.recordArrayOccupation := w.writer.recordArrayOccupation + 1 }
  w.checkRecordArray c accepts

section Add

variable (w : FlushingWriter α) (record : α)

theorem addRecord_file :
    (w.addRecord c accepts record).2.writer.file.isSome = w.writer.file.isSome := by
  unfold addRecord checkRecordArray
  dsimp only
  split
  · generalize same : ({ w.writer with
      recordArray := Function.update w.writer.recordArray w.writer.recordArrayOccupation record
      recordArrayOccupation := w.writer.recordArrayOccupation + 1 } : TraceWriter α) = writer
    obtain ⟨file, opened, flush⟩ := writer.flushRecordArrayTo_eq c (accepts w.flushes)
    have kept : writer.file = w.writer.file := by rw [← same]
    rw [flush, ← kept, ← opened]
    by_cases taken : file.isSome ∧ writer.recordArrayOccupation * c.width ≤ accepts w.flushes <;>
      simp [taken, TraceWriter.resetRecordArray]
  · rfl

/-- An array that does not become full is not flushed. -/
theorem addRecord_room (room : w.writer.recordArrayOccupation + 1 ≠ recordArraySize) :
    (w.addRecord c accepts record).2.writer.recordArrayOccupation =
        w.writer.recordArrayOccupation + 1 ∧
      (w.addRecord c accepts record).2.flushes = w.flushes := by
  unfold addRecord checkRecordArray
  dsimp only
  rw [if_neg (by simpa [TraceWriter.isRecordArrayFull] using room)]
  exact ⟨rfl, rfl⟩

/-- One that does is, and stays full where the flush fails. -/
theorem addRecord_full (full : w.writer.recordArrayOccupation + 1 = recordArraySize) :
    (w.addRecord c accepts record).2.writer.recordArrayOccupation =
        (if w.writer.file.isSome ∧ recordArraySize * c.width ≤ accepts w.flushes then 0
          else recordArraySize) ∧
      (w.addRecord c accepts record).2.flushes = w.flushes + 1 := by
  unfold addRecord checkRecordArray
  dsimp only
  rw [if_pos (by simpa [TraceWriter.isRecordArrayFull] using full)]
  generalize same : ({ w.writer with
    recordArray := Function.update w.writer.recordArray w.writer.recordArrayOccupation record
    recordArrayOccupation := w.writer.recordArrayOccupation + 1 } : TraceWriter α) = writer
  have kept : writer.file = w.writer.file := by rw [← same]
  have count : writer.recordArrayOccupation = recordArraySize := by rw [← same]; exact full
  obtain ⟨file, _, flush⟩ := writer.flushRecordArrayTo_eq c (accepts w.flushes)
  rw [flush, kept, count]
  by_cases taken : w.writer.file.isSome ∧ recordArraySize * c.width ≤ accepts w.flushes
  · simp [taken, TraceWriter.resetRecordArray]
  · simp [taken]

end Add

end FlushingWriter

end Sinuca3.Source
