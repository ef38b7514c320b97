import Sinuca3.Source.Tracer.MemoryTraceReader
import Sinuca3.Source.Tracer.StaticTrace

/-!
# Static trace writer

`x86_trace_generator/utils/static_trace_writer.cpp`. The cell 0 of the array is kept
for the size of the block; a block is flushed as soon as its size and as many
instructions are there. `Gathered` is that in lists, and `Gathers` says that a writer
does it.
-/
namespace Sinuca3.Source
open Lib

structure StaticTraceWriter where
  file : Option File := none
  header : FileHeader
  /-- As many cells as are allocated. -/
  basicBlock : List StaticTraceRecord
  basicBlockArraySize : Nat
  basicBlockOccupation : Nat
  currentBasicBlockSize : Int

namespace StaticTraceWriter

/-- Cells nobody has written yet are shown as zero. -/
def create : StaticTraceWriter where
  header := FileHeader.create.setHeaderType fileTypeStaticTrace
  basicBlock := List.replicate 128 default
  basicBlockArraySize := 128
  basicBlockOccupation := 1
  currentBasicBlockSize := -1

/-- `fopen` in the mode `wb`. -/
def openFile (w : StaticTraceWriter) : StaticTraceWriter :=
  { w with file := some (FileHeader.reserveHeaderSpace {}) }

def resetBasicBlock (w : StaticTraceWriter) : StaticTraceWriter :=
  { w with basicBlockOccupation := 1, currentBasicBlockSize := -1 }

def isBasicBlockReadyToBeFlushed (w : StaticTraceWriter) : Bool :=
  w.currentBasicBlockSize = w.basicBlockOccupation - 1

def wasBasicBlockReset (w : StaticTraceWriter) : Bool := w.currentBasicBlockSize = -1

def isBasicBlockArrayFull (w : StaticTraceWriter) : Bool :=
  w.basicBlockArraySize ≤ w.basicBlockOccupation

/-- Non-zero return codes are `true` here and below. -/
def flushBasicBlock (w : StaticTraceWriter) : Bool × StaticTraceWriter :=
  match w.file with
  | none => (true, w)
  | some file =>
    let records := w.basicBlock.take w.basicBlockOccupation
    (false, { w with file := some (file.fwrite (records.flatMap StaticTraceRecord.codec.encode)) })

/-- Memory does not run out. -/
def reallocBasicBlock (w : StaticTraceWriter) : Bool × StaticTraceWriter :=
  (false, { w with
    basicBlockArraySize := w.basicBlockArraySize * 2
    basicBlock := w.basicBlock ++ List.replicate w.basicBlockArraySize default })

/-- The flush of a block that is ready, at the end of `AddStaticRecord`. -/
def checkBasicBlock (w : StaticTraceWriter) : Bool × StaticTraceWriter :=
  if w.isBasicBlockReadyToBeFlushed then
    match w.flushBasicBlock with
    | (true, w) => (true, w)
    | (false, w) => (false, w.resetBasicBlock)
  else (false, w)

def addStaticRecord (w : StaticTraceWriter) (record : StaticTraceRecord) (pos : Nat) :
    Bool × StaticTraceWriter :=
  match if w.isBasicBlockArrayFull then w.reallocBasicBlock else (false, w) with
  | (true, w) => (true, w)
  | (false, w) =>
    let w := { w with basicBlock := w.basicBlock.set pos record }
    let w := if pos ≠ 0 then { w with basicBlockOccupation := w.basicBlockOccupation + 1 } else w
    w.checkBasicBlock

/-- `currentBasicBlockSize` is an `int`. -/
def addBasicBlockSize (w : StaticTraceWriter) (basicBlockSize : BitVec 32) :
    Bool × StaticTraceWriter :=
  if !w.wasBasicBlockReset then (true, w)
  else if basicBlockSize = 0 then (true, w)
  else
    let record := StaticTraceRecord.ofSize basicBlockSize
    let w := { w with currentBasicBlockSize := basicBlockSize.toInt }
    w.addStaticRecord record 0

def addInstruction (w : StaticTraceWriter) (inst : Instruction) : Bool × StaticTraceWriter :=
  let record := StaticTraceRecord.ofInstruction inst
  w.addStaticRecord record w.basicBlockOccupation

def incStaticInstructionCount (w : StaticTraceWriter) : StaticTraceWriter :=
  let h := w.header
  { w with header := h.setStaticHeader (h.instCount + 1) h.bblCount h.threadCount }

def incThreadCount (w : StaticTraceWriter) : StaticTraceWriter :=
  let h := w.header
  { w with header := h.setStaticHeader h.instCount h.bblCount (h.threadCount + 1) }

def incBasicBlockCount (w : StaticTraceWriter) : StaticTraceWriter :=
  let h := w.header
  { w with header := h.setStaticHeader h.instCount (h.bblCount + 1) h.threadCount }

def setTargetArch (w : StaticTraceWriter) (target : BitVec 8) : StaticTraceWriter :=
  { w with header := { w.header with targetArch := target } }

/-- The destructor: the file it closes, if there is one. An incomplete block is not
written, and an error is printed. -/
def destroy (w : StaticTraceWriter) : Option File := (w.header.flushHeader w.file).2

/-- What a tracer may do with an opened writer. -/
inductive Call where
  | addBasicBlockSize (basicBlockSize : BitVec 32)
  | addInstruction (inst : Instruction)
  | incStaticInstructionCount
  | incBasicBlockCount
  | incThreadCount
  | setTargetArch (target : BitVec 8)

def call (w : StaticTraceWriter) : Call → StaticTraceWriter
  | .addBasicBlockSize basicBlockSize => (w.addBasicBlockSize basicBlockSize).2
  | .addInstruction inst => (w.addInstruction inst).2
  | .incStaticInstructionCount => w.incStaticInstructionCount
  | .incBasicBlockCount => w.incBasicBlockCount
  | .incThreadCount => w.incThreadCount
  | .setTargetArch target => w.setTargetArch target

/-- The file of a writer that was opened, used and destroyed. -/
def write (calls : List Call) : Option File := (calls.foldl call create.openFile).destroy

/-- The calls that add a record. -/
def Call.adds : Call → Bool
  | .addBasicBlockSize _ => true
  | .addInstruction _ => true
  | _ => false

def Call.countsInstruction : Call → Bool
  | .incStaticInstructionCount => true
  | _ => false

def Call.countsBasicBlock : Call → Bool
  | .incBasicBlockCount => true
  | _ => false

/-- What is in the file, and the size and the instructions of the current block. -/
structure Gathered where
  flushed : List StaticTraceRecord := []
  size : Option Nat := none
  insts : List Instruction := []

namespace Gathered

/-- A complete block goes to the file. -/
def settle (g : Gathered) : Gathered :=
  if g.size = some g.insts.length then { flushed := g.flushed ++ blockRecords g.insts } else g

def addInstruction (g : Gathered) (inst : Instruction) : Gathered :=
  settle { g with insts := g.insts ++ [inst] }

def addBasicBlockSize (g : Gathered) (basicBlockSize : Nat) : Gathered :=
  if g.size.isSome then g
  else if basicBlockSize = 0 then g
  else settle { g with size := some basicBlockSize }

def call (g : Gathered) : Call → Gathered
  | .addBasicBlockSize basicBlockSize => g.addBasicBlockSize basicBlockSize.toNat
  | .addInstruction inst => g.addInstruction inst
  | _ => g

/-- Only the calls that add records matter. -/
theorem foldl_call_filter (calls : List Call) (g : Gathered) :
    calls.foldl call g = (calls.filter Call.adds).foldl call g := by
  induction calls generalizing g with
  | nil => rfl
  | cons c calls ih =>
    rw [List.foldl_cons, ih]
    cases c <;> rfl

end Gathered

/-- The writer has gathered `g`. -/
structure Gathers (g : Gathered) (w : StaticTraceWriter) : Prop where
  written : ∃ file, w.file = some file ∧ File.Reserved FileHeader.codec.width
    (g.flushed.flatMap StaticTraceRecord.codec.encode) file
  allocated : w.basicBlock.length = w.basicBlockArraySize
  positive : 0 < w.basicBlockArraySize
  room : w.basicBlockOccupation ≤ w.basicBlockArraySize
  occupation : w.basicBlockOccupation = g.insts.length + 1
  current : w.currentBasicBlockSize = match g.size with
    | none => -1
    | some size => size
  cells : ∃ first, w.basicBlock.take (g.insts.length + 1) = first :: g.insts.map .ofInstruction ∧
    ∀ size, g.size = some size → first = .ofSize (BitVec.ofNat 32 size)

theorem gathers_openFile : Gathers {} create.openFile where
  written := ⟨_, rfl, File.reserved_fseek _⟩
  allocated := rfl
  positive := by decide
  room := by decide
  occupation := rfl
  current := rfl
  cells := ⟨default, rfl, fun _ sized => by cases sized⟩

/-- The array has room for one more record. -/
theorem Gathers.grown {g : Gathered} {w : StaticTraceWriter} (before : Gathers g w) :
    ∃ w', (if w.isBasicBlockArrayFull then w.reallocBasicBlock else (false, w)) = (false, w') ∧
      Gathers g w' ∧ w'.basicBlockOccupation < w'.basicBlockArraySize ∧
      w'.basicBlockOccupation = w.basicBlockOccupation ∧ w'.header = w.header := by
  have positive := before.positive
  have room := before.room
  by_cases full : w.basicBlockArraySize ≤ w.basicBlockOccupation
  · rw [if_pos (by simpa [isBasicBlockArrayFull] using full)]
    refine ⟨_, rfl, ?_, ?_, rfl, rfl⟩
    · obtain ⟨first, cells, sized⟩ := before.cells
      have inside : g.insts.length + 1 ≤ w.basicBlock.length := by
        rw [before.allocated, ← before.occupation]
        exact room
      refine ⟨before.written, ?_, ?_, ?_, before.occupation, before.current, first, ?_, sized⟩
      · simp only [List.length_append, List.length_replicate, before.allocated]
        omega
      · dsimp only
        omega
      · dsimp only
        omega
      · dsimp only
        rw [List.take_append_of_le_length inside, cells]
    · dsimp only
      omega
  · rw [if_neg (by simpa [isBasicBlockArrayFull] using full)]
    exact ⟨w, rfl, before, by omega, rfl, rfl⟩

/-- The flush of a complete block. -/
theorem Gathers.settled {g : Gathered} {w : StaticTraceWriter} (before : Gathers g w) :
    ∃ w', w.checkBasicBlock = (false, w') ∧ Gathers g.settle w' ∧ w'.header = w.header := by
  have ready : w.isBasicBlockReadyToBeFlushed = true ↔ g.size = some g.insts.length := by
    have current := before.current
    rw [isBasicBlockReadyToBeFlushed, decide_eq_true_eq, before.occupation]
    cases size : g.size with
    | none =>
      rw [size] at current
      simp only [current, reduceCtorEq, iff_false]
      omega
    | some n =>
      rw [size] at current
      simp only [current, Option.some.injEq]
      omega
  unfold checkBasicBlock Gathered.settle
  by_cases complete : g.size = some g.insts.length
  · obtain ⟨file, opened, reserved⟩ := before.written
    obtain ⟨first, cells, sized⟩ := before.cells
    rw [if_pos (ready.mpr complete), if_pos complete, flushBasicBlock, opened]
    refine ⟨_, rfl, ⟨⟨_, rfl, ?_⟩, before.allocated, before.positive, before.positive, rfl, rfl,
      ?_⟩, rfl⟩
    · rw [before.occupation, cells, sized _ complete, List.flatMap_append]
      exact reserved.fwrite _
    · have one : w.basicBlock.take 1 = [first] := by
        have shorter := congrArg (List.take 1) cells
        rwa [List.take_take, Nat.min_eq_left (by omega), List.take_succ_cons, List.take_zero]
          at shorter
      exact ⟨first, one, fun _ sized => by cases sized⟩
  · rw [if_neg (fun isReady => complete (ready.mp isReady)), if_neg complete]
    exact ⟨w, rfl, before, rfl⟩

theorem Gathers.addInstruction {g : Gathered} {w : StaticTraceWriter} (before : Gathers g w)
    (inst : Instruction) :
    Gathers (g.addInstruction inst) (w.addInstruction inst).2 ∧
      (w.addInstruction inst).2.header = w.header := by
  obtain ⟨w', grown, before', room, same, header⟩ := before.grown
  have stored : Gathers { g with insts := g.insts ++ [inst] } { w' with
      basicBlock := w'.basicBlock.set w.basicBlockOccupation (.ofInstruction inst)
      basicBlockOccupation := w'.basicBlockOccupation + 1 } := by
    obtain ⟨first, cells, sized⟩ := before'.cells
    have inside : g.insts.length + 1 < w'.basicBlock.length := by
      rw [before'.allocated, ← before'.occupation]
      exact room
    refine ⟨before'.written, ?_, before'.positive, room, ?_, before'.current, first, ?_, sized⟩
    · rw [List.length_set, before'.allocated]
    · simp only [before'.occupation, List.length_append, List.length_singleton]
    · rw [before.occupation, List.length_append, List.length_singleton,
        DynamicInstructionInfo.take_set_succ _ _ _ inside, cells]
      simp
  obtain ⟨w'', checked, after, header'⟩ := stored.settled
  have some : w.basicBlockOccupation ≠ 0 := by
    rw [before.occupation]
    exact Nat.succ_ne_zero _
  have added : w.addInstruction inst = (false, w'') := by
    rw [StaticTraceWriter.addInstruction, addStaticRecord, grown]
    dsimp only
    rw [if_pos some]
    exact checked
  rw [added]
  exact ⟨after, header'.trans header⟩

theorem Gathers.addBasicBlockSize {g : Gathered} {w : StaticTraceWriter} (before : Gathers g w)
    (size : BitVec 32) (small : size.toNat < 65536) :
    Gathers (g.addBasicBlockSize size.toNat) (w.addBasicBlockSize size).2 ∧
      (w.addBasicBlockSize size).2.header = w.header := by
  unfold StaticTraceWriter.addBasicBlockSize Gathered.addBasicBlockSize
  have current := before.current
  cases waiting : g.size with
  | some n =>
    rw [waiting] at current
    have value : w.currentBasicBlockSize = (n : Int) := current
    have busy : w.wasBasicBlockReset = false := by
      rw [wasBasicBlockReset, decide_eq_false_iff_not, value]
      omega
    rw [busy, if_pos (Bool.not_false), Option.isSome_some, if_pos rfl]
    exact ⟨before, rfl⟩
  | none =>
    rw [waiting] at current
    have reset : w.wasBasicBlockReset = true := by simpa [wasBasicBlockReset] using current
    simp only [reset, Bool.not_true, Bool.false_eq_true, if_false, Option.isSome_none]
    by_cases zero : size = 0
    · have none : size.toNat = 0 := by
        rw [zero]
        rfl
      rw [if_pos zero, if_pos none]
      exact ⟨before, rfl⟩
    · have nonzero : size.toNat ≠ 0 := fun none => zero (BitVec.eq_of_toNat_eq none)
      have asInt : size.toInt = size.toNat := BitVec.toInt_eq_toNat_of_lt (by omega)
      rw [if_neg zero, if_neg nonzero]
      obtain ⟨w', grown, before', room, same, header⟩ := before.grown
      have stored : Gathers { g with size := some size.toNat } { w' with
          basicBlock := w'.basicBlock.set 0 (.ofSize size)
          currentBasicBlockSize := size.toInt } := by
        obtain ⟨first, cells, _⟩ := before'.cells
        refine ⟨before'.written, ?_, before'.positive, before'.room, before'.occupation, asInt,
          .ofSize size, ?_, ?_⟩
        · rw [List.length_set, before'.allocated]
        · cases block : w'.basicBlock with
          | nil => simp [block] at cells
          | cons cell rest =>
            rw [block, List.take_succ_cons, List.cons.injEq] at cells
            rw [List.set_cons_zero, List.take_succ_cons, cells.2]
        · intro n sized
          cases sized
          rw [BitVec.ofNat_toNat, BitVec.setWidth_eq]
      obtain ⟨w'', checked, after, header'⟩ := stored.settled
      have added : addStaticRecord { w with currentBasicBlockSize := size.toInt }
          (.ofSize size) 0 = (false, w'') := by
        -- Growing the array does not look at the size.
        have grown' : (if isBasicBlockArrayFull { w with currentBasicBlockSize := size.toInt } then
              reallocBasicBlock { w with currentBasicBlockSize := size.toInt }
            else (false, { w with currentBasicBlockSize := size.toInt })) =
            (false, { w' with currentBasicBlockSize := size.toInt }) := by
          by_cases full : w.isBasicBlockArrayFull = true
          · rw [if_pos full] at grown
            cases grown
            exact if_pos full
          · rw [if_neg full] at grown
            cases grown
            exact if_neg full
        rw [addStaticRecord, grown']
        exact checked
      rw [added]
      exact ⟨after, header'.trans header⟩

theorem Gathers.header {g : Gathered} {w : StaticTraceWriter} (before : Gathers g w)
    (header : FileHeader) : Gathers g { w with header := header } :=
  ⟨before.written, before.allocated, before.positive, before.room, before.occupation,
    before.current, before.cells⟩

/-- One call of a tracer whose sizes fit 16 bits. -/
theorem Gathers.call {g : Gathered} {w : StaticTraceWriter} (before : Gathers g w) (c : Call)
    (small : ∀ size, c = .addBasicBlockSize size → size.toNat < 65536) :
    Gathers (g.call c) (w.call c) := by
  cases c with
  | addBasicBlockSize size => exact (before.addBasicBlockSize size (small size rfl)).1
  | addInstruction inst => exact (before.addInstruction inst).1
  | incStaticInstructionCount => exact before.header _
  | incBasicBlockCount => exact before.header _
  | incThreadCount => exact before.header _
  | setTargetArch target => exact before.header _

theorem Gathers.calls {g : Gathered} {w : StaticTraceWriter} (before : Gathers g w)
    (calls : List Call)
    (small : ∀ size, .addBasicBlockSize size ∈ calls → size.toNat < 65536) :
    Gathers (calls.foldl Gathered.call g) (calls.foldl StaticTraceWriter.call w) := by
  induction calls generalizing g w with
  | nil => exact before
  | cons c calls ih =>
    refine ih (before.call c ?_) fun size member => small size (List.mem_cons_of_mem c member)
    rintro size rfl
    exact small size (List.mem_cons_self ..)

end StaticTraceWriter

end Sinuca3.Source
