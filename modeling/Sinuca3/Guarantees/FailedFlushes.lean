import Sinuca3.Lib.Machine
import Sinuca3.Source.TraceGenerator.FailingFlush

/-!
# Trace writers through failed flushes

The check for a full array comes after the store and tests equality. An array that stays
full, because its flush failed, is passed by the next record, and is never full again.
-/
namespace Sinuca3.Guarantees
open Sinuca3.Source Lib

variable {α : Type}

/-- What one call of `AddDynamicRecord` or `AddMemoryRecord` did. -/
structure Addition where
  /-- Of the store into `recordArray`. -/
  index : Nat
  /-- `recordArrayOccupation` after the call. -/
  occupation : Nat
  /-- The array was full before the call. -/
  full : Bool
  /-- The call came to `FlushRecordArray`. -/
  flushed : Bool

def addition (c : Codec α) (accepts : Nat → Nat) (w : FlushingWriter α) (record : α) :
    FlushingWriter α × List Addition :=
  let w' := (w.addRecord c accepts record).2
  (w', [{
    index := w.writer.recordArrayOccupation
    occupation := w'.writer.recordArrayOccupation
    full := w.writer.isRecordArrayFull
    flushed := w.flushes < w'.flushes }])

structure Addition.Survives (a : Addition) : Prop where
  index : a.index < recordArraySize
  occupation : a.occupation ≤ recordArraySize
  again : a.full = true → a.flushed = true

/-- A new writer, whose file could be opened or not. -/
def newWriter (w : TraceWriter α) (opened : Bool) : FlushingWriter α :=
  ⟨if opened then w.openFile else w, 0⟩

/-- Every flush that is followed by another record of `n` succeeds. -/
def FlushesSucceed (c : Codec α) (accepts : Nat → Nat) (opened : Bool) (n : Nat) : Prop :=
  ∀ k, (k + 1) * recordArraySize < n → opened = true ∧ recordArraySize * c.width ≤ accepts k

section Run

variable (c : Codec α) (accepts : Nat → Nat) (opened : Bool)

/-- A writer after `n` records, with no store out of the array so far: either all flushes
succeeded, or the last did not and the array is still full. -/
structure Filled (w : FlushingWriter α) (n : Nat) : Prop where
  file : w.writer.file.isSome = opened
  occupation : (w.writer.recordArrayOccupation < recordArraySize ∧
      n = w.flushes * recordArraySize + w.writer.recordArrayOccupation ∧
      FlushesSucceed c accepts opened (n + 1)) ∨
    (w.writer.recordArrayOccupation = recordArraySize ∧
      ¬ FlushesSucceed c accepts opened (n + 1))

variable {c accepts opened} {w : FlushingWriter α} {n : Nat}

theorem addition_survives_iff (record : α) (a : Addition)
    (added : (addition c accepts w record).2 = [a]) :
    a.Survives ↔ w.writer.recordArrayOccupation < recordArraySize := by
  simp only [addition, List.cons.injEq, and_true] at added
  subst added
  constructor
  · exact fun survives => survives.index
  · intro room
    refine ⟨room, ?_, fun full => ?_⟩
    · dsimp only
      by_cases last : w.writer.recordArrayOccupation + 1 = recordArraySize
      · rw [(w.addRecord_full c accepts record last).1]
        split
        · exact Nat.zero_le _
        · exact Nat.le_refl _
      · rw [(w.addRecord_room c accepts record last).1]
        exact room
    · rw [TraceWriter.isRecordArrayFull, decide_eq_true_eq] at full
      omega

/-- With a record that fills the array for the `q + 1`st time one more flush counts. -/
theorem flushesSucceed_full {q : Nat} (count : n + 1 = (q + 1) * recordArraySize)
    (succeed : FlushesSucceed c accepts opened (n + 1)) :
    FlushesSucceed c accepts opened (n + 2) ↔
      opened = true ∧ recordArraySize * c.width ≤ accepts q := by
  constructor
  · exact fun all => all q (by omega)
  · intro last k early
    by_cases before : (k + 1) * recordArraySize < n + 1
    · exact succeed k before
    · have same : k + 1 = q + 1 :=
        Nat.eq_of_mul_eq_mul_right recordArraySize_pos (by omega)
      rw [Nat.succ.inj same]
      exact last

/-- With another record none does. -/
theorem flushesSucceed_room {q r : Nat} (count : n + 1 = q * recordArraySize + (r + 1))
    (room : r + 1 < recordArraySize) (succeed : FlushesSucceed c accepts opened (n + 1)) :
    FlushesSucceed c accepts opened (n + 2) := by
  intro k early
  have whole : (k + 1) * recordArraySize < (q + 1) * recordArraySize := by
    rw [Nat.succ_mul q]
    omega
  have flushed := Nat.le_of_lt_succ (Nat.lt_of_mul_lt_mul_right whole)
  have multiple := Nat.mul_le_mul_right recordArraySize flushed
  exact succeed k (by omega)

/-- A record stored in the array, flushed where that made it full. -/
theorem Filled.next (filled : Filled c accepts opened w n)
    (succeed : FlushesSucceed c accepts opened (n + 1)) (record : α) :
    Filled c accepts opened (addition c accepts w record).1 (n + 1) := by
  obtain ⟨file, ⟨below, count, _⟩ | ⟨_, failed⟩⟩ := filled
  rotate_left
  · exact absurd succeed failed
  refine ⟨(w.addRecord_file c accepts record).trans file, ?_⟩
  dsimp only [addition]
  by_cases last : w.writer.recordArrayOccupation + 1 = recordArraySize
  · obtain ⟨occupation, flushes⟩ := w.addRecord_full c accepts record last
    have whole : n + 1 = (w.flushes + 1) * recordArraySize := by
      rw [Nat.succ_mul]
      omega
    rw [occupation, flushes, file, flushesSucceed_full whole succeed]
    split
    · rename_i taken
      exact .inl ⟨recordArraySize_pos, whole.trans (Nat.add_zero _).symm, taken⟩
    · rename_i refused
      exact .inr ⟨rfl, refused⟩
  · obtain ⟨occupation, flushes⟩ := w.addRecord_room c accepts record last
    rw [occupation, flushes]
    have count' : n + 1 = w.flushes * recordArraySize + (w.writer.recordArrayOccupation + 1) := by
      rw [count, Nat.add_assoc]
    exact .inl ⟨by omega, count', flushesSucceed_room count' (by omega) succeed⟩

end Run

/-- A writer survives exactly the runs in which no flush but the last fails. -/
theorem run_survives_iff (c : Codec α) (accepts : Nat → Nat) (new : TraceWriter α)
    (unused : new.file = none ∧ new.recordArrayOccupation = 0) (opened : Bool)
    (records : List α) :
    (∀ a ∈ (Machine.run (addition c accepts) (newWriter new opened) records).2, a.Survives) ↔
      FlushesSucceed c accepts opened records.length := by
  have start : Filled c accepts opened (newWriter new opened) 0 := by
    refine ⟨?_, .inl ⟨?_, ?_, fun k early => ?_⟩⟩
    · cases opened
      · simp [newWriter, unused.1]
      · rfl
    · cases opened <;> simp [newWriter, TraceWriter.openFile, unused.2, recordArraySize_pos]
    · cases opened <;> simp [newWriter, TraceWriter.openFile, unused.2]
    · exact absurd (Nat.mul_pos (Nat.succ_pos k) recordArraySize_pos)
        (Nat.not_lt.mpr (Nat.le_of_lt_succ early))
  have reached := Machine.reached_iff_within (addition c accepts)
    (fun w records => Filled c accepts opened w records.length)
    (fun _ log => ∀ a ∈ log, a.Survives)
    (fun records => FlushesSucceed c accepts opened records.length)
    start (by simp) (fun k early => absurd early (Nat.not_lt_zero _))
    (fun w records record filled _ succeed => by
      rw [List.length_append] at succeed ⊢
      exact filled.next succeed record)
    (fun w records log record filled _ survived => by
      rw [List.length_append, List.forall_mem_append, and_iff_right survived]
      dsimp only [addition]
      rw [List.forall_mem_singleton, addition_survives_iff record _ rfl]
      rcases filled.occupation with ⟨below, _, succeed⟩ | ⟨full, failed⟩
      · exact iff_of_true below succeed
      · exact iff_of_false (by omega) failed)
    records
  constructor
  · intro survived
    refine reached.mp (fun js early => ?_) records (List.prefix_refl _)
    obtain ⟨later, rfl⟩ := early
    rw [Machine.run_append] at survived
    exact fun a member => survived a (List.mem_append_left _ member)
  · intro succeed
    refine reached.mpr (fun js early k before => succeed k ?_) records (List.prefix_refl _)
    exact Nat.lt_of_lt_of_le before early.length_le

/-- For every sequence of record additions and every pattern of `fwrite`: all stores are
in the array, and a full array is flushed again, if and only if every flush succeeds that
is followed by another record. -/
theorem trace_writers_survive (accepts : Nat → Nat) (opened : Bool) :
    (∀ records,
      (∀ a ∈ (Machine.run (addition DynamicTraceRecord.codec accepts)
          (newWriter DynamicTraceWriter.create opened) records).2, a.Survives) ↔
        FlushesSucceed DynamicTraceRecord.codec accepts opened records.length) ∧
    (∀ records,
      (∀ a ∈ (Machine.run (addition MemoryTraceRecord.codec accepts)
          (newWriter MemoryTraceWriter.create opened) records).2, a.Survives) ↔
        FlushesSucceed MemoryTraceRecord.codec accepts opened records.length) :=
  ⟨run_survives_iff _ accepts _ ⟨rfl, rfl⟩ opened, run_survives_iff _ accepts _ ⟨rfl, rfl⟩ opened⟩

/-- A file that takes nothing, and one record more than the array has room for. -/
theorem record_behind_the_array :
    ¬ ∀ a ∈ (Machine.run (addition DynamicTraceRecord.codec fun _ => 0)
        (newWriter DynamicTraceWriter.create true)
        (List.replicate 10001 { data := 0, recordType := 0 })).2, a.Survives := by
  rw [run_survives_iff _ _ _ ⟨rfl, rfl⟩, List.length_replicate]
  intro succeed
  have taken := (succeed 0 (by decide)).2
  revert taken
  decide

end Sinuca3.Guarantees
