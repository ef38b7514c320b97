import Mathlib.Algebra.BigOperators.Group.List.Basic
import Sinuca3.Source.TraceGenerator.StaticTraceWriter
import Sinuca3.Source.Tracer.TraceReader

/-!
# Round trip of static traces

Whatever the place of the size among the instructions of a block, the file has the
size first, and the reader's dictionary describes the blocks. The counters of the
header are 32 bits wide, and the reader keeps the number of instructions in an `int`.
-/
namespace Sinuca3.Guarantees
open Sinuca3.Source Lib StaticTraceWriter

/-- A basic block, and where its size is added. -/
structure PlacedBlock where
  before : List Instruction
  after : List Instruction
  nonempty : before ++ after ≠ []
  size_lt : (before ++ after).length < 65536

namespace PlacedBlock

def instructions (b : PlacedBlock) : List Instruction := b.before ++ b.after

def calls (b : PlacedBlock) : List Call :=
  b.before.map .addInstruction ++
    .addBasicBlockSize (BitVec.ofNat 32 b.instructions.length) :: b.after.map .addInstruction

end PlacedBlock

/-- The calls of a tracer that adds some blocks, and counts each block and each
instruction once, at any time. -/
structure Session (blocks : List PlacedBlock) (calls : List Call) : Prop where
  adds : calls.filter Call.adds = blocks.flatMap PlacedBlock.calls
  instructions : calls.countP Call.countsInstruction =
    (blocks.map fun b => b.instructions.length).sum
  basicBlocks : calls.countP Call.countsBasicBlock = blocks.length

/-- Without a size, instructions wait. -/
theorem gather_before (insts : List Instruction) (flushed : List StaticTraceRecord)
    (waiting : List Instruction) :
    (insts.map Call.addInstruction).foldl Gathered.call ⟨flushed, none, waiting⟩ =
      ⟨flushed, none, waiting ++ insts⟩ := by
  induction insts generalizing waiting with
  | nil => simp
  | cons i insts ih =>
    rw [List.map_cons, List.foldl_cons]
    change List.foldl Gathered.call ⟨flushed, none, waiting ++ [i]⟩ _ = _
    rw [ih, List.append_assoc]
    rfl

/-- With the size, the last instruction completes the block. -/
theorem gather_after (insts : List Instruction) (some : insts ≠ [])
    (flushed : List StaticTraceRecord) (waiting : List Instruction) :
    (insts.map Call.addInstruction).foldl Gathered.call
        ⟨flushed, .some (waiting ++ insts).length, waiting⟩ =
      { flushed := flushed ++ blockRecords (waiting ++ insts) } := by
  induction insts generalizing waiting with
  | nil => exact absurd rfl some
  | cons i insts ih =>
    rw [List.map_cons, List.foldl_cons]
    have step : Gathered.call ⟨flushed, .some (waiting ++ i :: insts).length, waiting⟩
        (.addInstruction i) =
        if (waiting ++ i :: insts).length = (waiting ++ [i]).length then
          { flushed := flushed ++ blockRecords (waiting ++ [i]) }
        else ⟨flushed, .some (waiting ++ i :: insts).length, waiting ++ [i]⟩ := by
      simp [Gathered.call, Gathered.addInstruction, Gathered.settle]
    rw [step]
    cases insts with
    | nil => rw [if_pos rfl]; rfl
    | cons j insts =>
      rw [if_neg (by simp)]
      have rest := ih (by simp) (waiting ++ [i])
      rwa [List.append_assoc] at rest

/-- One block, wherever its size is. -/
theorem gather_block (b : PlacedBlock) (flushed : List StaticTraceRecord) :
    b.calls.foldl Gathered.call { flushed := flushed } =
      { flushed := flushed ++ blockRecords b.instructions } := by
  have small := b.size_lt
  have size : (BitVec.ofNat 32 b.instructions.length).toNat = b.instructions.length := by
    rw [BitVec.toNat_ofNat]
    exact Nat.mod_eq_of_lt (Nat.lt_trans small (by decide))
  have nonzero : b.instructions.length ≠ 0 := by
    intro zero
    exact b.nonempty (List.eq_nil_of_length_eq_zero zero)
  rw [PlacedBlock.calls, List.foldl_append, gather_before, List.nil_append, List.foldl_cons]
  have step : Gathered.call ⟨flushed, none, b.before⟩
      (.addBasicBlockSize (BitVec.ofNat 32 b.instructions.length)) =
      Gathered.settle ⟨flushed, some b.instructions.length, b.before⟩ := by
    simp only [Gathered.call, Gathered.addBasicBlockSize, size, if_neg nonzero,
      Option.isSome_none, Bool.false_eq_true, if_false]
  rw [step]
  by_cases last : b.after = []
  · have all : b.instructions = b.before := by rw [PlacedBlock.instructions, last, List.append_nil]
    rw [all, last, Gathered.settle, if_pos rfl]
    rfl
  · have more : (some b.instructions.length : Option Nat) ≠ some b.before.length := by
      have positive := List.length_pos_iff.mpr last
      simp only [PlacedBlock.instructions, List.length_append, ne_eq, Option.some.injEq]
      omega
    rw [Gathered.settle, if_neg more]
    exact gather_after b.after last flushed b.before

theorem gather_blocks (blocks : List PlacedBlock) (flushed : List StaticTraceRecord) :
    (blocks.flatMap PlacedBlock.calls).foldl Gathered.call { flushed := flushed } =
      { flushed := flushed ++ blocks.flatMap fun b => blockRecords b.instructions } := by
  induction blocks generalizing flushed with
  | nil => simp
  | cons b blocks ih =>
    rw [List.flatMap_cons, List.foldl_append, gather_block, ih, List.flatMap_cons,
      List.append_assoc]

theorem call_header {g : Gathered} {w : StaticTraceWriter} (before : Gathers g w) (c : Call)
    (small : ∀ size, c = .addBasicBlockSize size → size.toNat < 65536) :
    (w.call c).header.instCount =
        w.header.instCount + BitVec.ofNat 32 (if c.countsInstruction then 1 else 0) ∧
      (w.call c).header.bblCount =
        w.header.bblCount + BitVec.ofNat 32 (if c.countsBasicBlock then 1 else 0) := by
  cases c with
  | addBasicBlockSize size =>
    have kept := (before.addBasicBlockSize size (small size rfl)).2
    simp [StaticTraceWriter.call, kept, Call.countsInstruction, Call.countsBasicBlock]
  | addInstruction inst =>
    have kept := (before.addInstruction inst).2
    simp [StaticTraceWriter.call, kept, Call.countsInstruction, Call.countsBasicBlock]
  | incStaticInstructionCount =>
    simp [StaticTraceWriter.call, incStaticInstructionCount, Call.countsInstruction,
      Call.countsBasicBlock]
  | incBasicBlockCount =>
    simp [StaticTraceWriter.call, incBasicBlockCount, Call.countsInstruction,
      Call.countsBasicBlock]
  | incThreadCount =>
    simp [StaticTraceWriter.call, incThreadCount, Call.countsInstruction, Call.countsBasicBlock]
  | setTargetArch target =>
    simp [StaticTraceWriter.call, StaticTraceWriter.setTargetArch, Call.countsInstruction,
      Call.countsBasicBlock, FileHeader.instCount, FileHeader.bblCount]

/-- The header counts the calls, 32 bits wide. -/
theorem calls_header (calls : List Call) {g : Gathered} {w : StaticTraceWriter}
    (before : Gathers g w)
    (small : ∀ size, .addBasicBlockSize size ∈ calls → size.toNat < 65536) :
    (calls.foldl StaticTraceWriter.call w).header.instCount =
        w.header.instCount + BitVec.ofNat 32 (calls.countP Call.countsInstruction) ∧
      (calls.foldl StaticTraceWriter.call w).header.bblCount =
        w.header.bblCount + BitVec.ofNat 32 (calls.countP Call.countsBasicBlock) := by
  induction calls generalizing g w with
  | nil => simp
  | cons c calls ih =>
    have here : ∀ size, c = .addBasicBlockSize size → size.toNat < 65536 := by
      rintro size rfl
      exact small size (List.mem_cons_self ..)
    obtain ⟨inst, bbl⟩ := call_header before c here
    obtain ⟨insts, bbls⟩ := ih (before.call c here)
      fun size member => small size (List.mem_cons_of_mem c member)
    rw [List.foldl_cons, insts, bbls, inst, bbl, List.countP_cons, List.countP_cons,
      BitVec.ofNat_add, BitVec.ofNat_add, BitVec.add_assoc, BitVec.add_assoc]
    exact ⟨congrArg _ (BitVec.add_comm _ _), congrArg _ (BitVec.add_comm _ _)⟩

/-- The records of a static trace, and below that their octets. -/
def traceRecords (blocks : List PlacedBlock) : List StaticTraceRecord :=
  blocks.flatMap fun b => blockRecords b.instructions

def traceOctets (blocks : List PlacedBlock) : List Byte :=
  (traceRecords blocks).flatMap StaticTraceRecord.codec.encode

/-- The file of a session, and a reader that opens it. -/
theorem session_file {blocks : List PlacedBlock} {calls : List Call}
    (session : Session blocks calls) :
    ∃ file r, write calls = some file ∧
      file.content.drop FileHeader.codec.width = traceOctets blocks ∧
      StaticTraceReader.openFile file.content = some r ∧ r.remaining = traceOctets blocks ∧
      r.header.instCount =
        BitVec.ofNat 32 (blocks.map fun b => b.instructions.length).sum ∧
      r.header.bblCount = BitVec.ofNat 32 blocks.length := by
  have small : ∀ size, .addBasicBlockSize size ∈ calls → size.toNat < 65536 := by
    intro size member
    have added : .addBasicBlockSize size ∈ calls.filter Call.adds :=
      List.mem_filter.mpr ⟨member, rfl⟩
    rw [session.adds, List.mem_flatMap] at added
    obtain ⟨b, _, here⟩ := added
    have this : size = BitVec.ofNat 32 b.instructions.length := by
      simpa [PlacedBlock.calls] using here
    have bound := b.size_lt
    rw [this, BitVec.toNat_ofNat]
    exact Nat.lt_of_le_of_lt (Nat.mod_le _ _) bound
  have gathers := gathers_openFile.calls calls small
  obtain ⟨insts, bbls⟩ := calls_header calls gathers_openFile small
  rw [Gathered.foldl_call_filter, session.adds, gather_blocks, List.nil_append] at gathers
  rw [session.instructions] at insts
  rw [session.basicBlocks] at bbls
  obtain ⟨file, opened, reserved⟩ := gathers.written
  obtain ⟨f, flush, content⟩ := FileHeader.flushHeader_reserved
    (calls.foldl StaticTraceWriter.call create.openFile).header reserved
  obtain ⟨r, readable, header, remaining⟩ := StaticTraceReader.openFile_encode
    (calls.foldl StaticTraceWriter.call create.openFile).header (traceOctets blocks)
  have whole : f.content = FileHeader.codec.encode
      (calls.foldl StaticTraceWriter.call create.openFile).header ++ traceOctets blocks := content
  have width := FileHeader.codec.length_encode
    (calls.foldl StaticTraceWriter.call create.openFile).header
  refine ⟨f, r, ?_, ?_, by rw [whole, readable], remaining, ?_, ?_⟩
  · rw [write, destroy, opened, flush]
  · rw [whole, ← width, List.drop_left]
  · rw [header, insts]
    exact BitVec.zero_add _
  · rw [header, bbls]
    exact BitVec.zero_add _

/-- The dictionary of some blocks: consecutive slices that fill the pool. -/
structure Describes (blocks : List (List Instruction)) (dict : InstructionDict) : Prop where
  sizes : dict.basicBlockSizeArr = blocks.map List.length
  starts : dict.instructionDict = (List.range blocks.length).map (startOf blocks)
  filled : dict.instructionPool.length = (blocks.map List.length).sum
  slices : ∀ k (present : k < blocks.length) j (inside : j < blocks[k].length),
    dict.instructionPool[startOf blocks k + j]? = some (translated blocks[k][j])

theorem getElem_slice (blocks : List (List Instruction)) (k : Nat) (present : k < blocks.length)
    (j : Nat) (inside : j < blocks[k].length) :
    (blocks.flatMap fun block => block.map translated)[startOf blocks k + j]? =
      some (translated blocks[k][j]) := by
  induction blocks generalizing k with
  | nil => cases present
  | cons block blocks ih =>
    rw [List.flatMap_cons]
    cases k with
    | zero =>
      have here : j < block.length := inside
      rw [startOf, List.take_zero, List.map_nil, List.sum_nil, Nat.zero_add,
        List.getElem?_append_left (by simpa using here)]
      simp [here]
    | succ k =>
      have rest := ih k (Nat.lt_of_succ_lt_succ present) inside
      have start : startOf (block :: blocks) (k + 1) = block.length + startOf blocks k := by
        simp [startOf]
      rw [start, List.getElem?_append_right (by simp; omega), List.length_map, Nat.add_assoc,
        Nat.add_sub_cancel_left, rest]
      rfl

/-- The dictionary that an opened trace reader looks instructions up in. -/
theorem Describes.openTrace {blocks : List (List Instruction)} {dict : InstructionDict}
    (describes : Describes blocks dict) (d : StaticDictionary)
    (same : d.blocks = blocks.map fun block => block.map translated)
    (threads : List ThreadFiles) (garbage : Nat → BitVec 64) (k : Nat)
    (present : k < blocks.length) :
    dict.basicBlockSizeArr[k]?.map Int.ofNat =
        some ((SinucaTraceReader.openTrace d threads garbage).basicBlockSizeArr k) ∧
      ∀ j < blocks[k].length, ∃ start, dict.instructionDict[k]? = some start ∧
        dict.instructionPool[start + j]? =
          some ((SinucaTraceReader.openTrace d threads garbage).instructionDict k j) := by
  have block : d.block k = blocks[k].map translated := by
    rw [StaticDictionary.block, same, List.getD_eq_getElem?_getD, List.getElem?_map,
      List.getElem?_eq_getElem present]
    rfl
  refine ⟨?_, fun j inside => ⟨startOf blocks k, ?_, ?_⟩⟩
  · simp [SinucaTraceReader.openTrace, describes.sizes, block, present]
  · simp [describes.starts, present]
  · rw [describes.slices k present j inside]
    simp [SinucaTraceReader.openTrace, block, inside]

/-- What the file holds, and what a reader makes of it. -/
def RoundTrips (blocks : List PlacedBlock) (calls : List Call) : Prop :=
  ∃ file r dict, write calls = some file ∧
    file.content.drop FileHeader.codec.width = traceOctets blocks ∧
    StaticTraceReader.openFile file.content = some r ∧
    generateInstructionDict r = some dict ∧
    Describes (blocks.map PlacedBlock.instructions) dict

/-- For every list of blocks of fewer than 2^31 instructions in all, wherever the size of
each stands among its instructions. -/
theorem static_round_trip (blocks : List PlacedBlock) (calls : List Call)
    (session : Session blocks calls)
    (few : (blocks.map fun b => b.instructions.length).sum < 2147483648) :
    RoundTrips blocks calls := by
  obtain ⟨file, r, written, records, opened, remaining, insts, bbls⟩ := session_file session
  have lengths : (blocks.map PlacedBlock.instructions).map List.length =
      blocks.map fun b => b.instructions.length := by
    rw [List.map_map]
    rfl
  have total : r.getTotalInstInStaticTrace =
      (blocks.map fun b => b.instructions.length).sum := by
    rw [StaticTraceReader.getTotalInstInStaticTrace, insts, BitVec.toInt_ofNat', Int.bmod_def]
    omega
  have fewBlocks : blocks.length ≤ (blocks.map fun b => b.instructions.length).sum := by
    have atLeast := List.length_le_sum_of_one_le (blocks.map fun b => b.instructions.length)
      (by
        intro n member
        obtain ⟨b, _, rfl⟩ := List.mem_map.mp member
        exact List.length_pos_iff.mpr b.nonempty)
    rwa [List.length_map] at atLeast
  have count : r.getTotalBasicBlocks = (blocks.map PlacedBlock.instructions).length := by
    rw [StaticTraceReader.getTotalBasicBlocks, bbls, BitVec.toNat_ofNat, List.length_map]
    exact Nat.mod_eq_of_lt (by omega)
  have small : ∀ block ∈ blocks.map PlacedBlock.instructions, block.length < 65536 := by
    intro block member
    obtain ⟨b, _, rfl⟩ := List.mem_map.mp member
    exact b.size_lt
  have next : r.remaining = ((blocks.map PlacedBlock.instructions).flatMap blockRecords).flatMap
      StaticTraceRecord.codec.encode ++ [] := by
    rw [remaining, List.append_nil, List.flatMap_map]
    rfl
  have looped := blockLoop_blocks _ small [] r next [] [] []
  rw [lengths] at looped
  have generated : generateInstructionDict r = blockLoop
      (blocks.map PlacedBlock.instructions).length 0 r ⟨[], [], List.replicate
        (blocks.map fun b => b.instructions.length).sum default⟩ := by
    rw [generateInstructionDict, total, if_neg (by omega), count]
    rfl
  refine ⟨file, r, _, written, records, opened, generated.trans looped, by simp, by simp, ?_, ?_⟩
  · simp [List.length_flatMap, Function.comp_def]
  · intro k present j inside
    simpa using getElem_slice _ k present j inside

/-- A session that counts a block before it and its instructions after it. -/
def countedCalls (blocks : List PlacedBlock) : List Call :=
  blocks.flatMap fun b =>
    .incBasicBlockCount :: b.calls ++
      List.replicate b.instructions.length .incStaticInstructionCount

theorem session_countedCalls (blocks : List PlacedBlock) : Session blocks (countedCalls blocks) := by
  have onlyAdds : ∀ b : PlacedBlock, ∀ c ∈ b.calls, c.adds = true ∧
      c.countsInstruction = false ∧ c.countsBasicBlock = false := by
    intro b c member
    simp only [PlacedBlock.calls, List.mem_append, List.mem_map, List.mem_cons] at member
    rcases member with ⟨i, _, rfl⟩ | rfl | ⟨i, _, rfl⟩ <;> exact ⟨rfl, rfl, rfl⟩
  induction blocks with
  | nil => exact ⟨rfl, rfl, rfl⟩
  | cons b blocks ih =>
    have adds : b.calls.filter Call.adds = b.calls :=
      List.filter_eq_self.mpr fun c member => (onlyAdds b c member).1
    have noInstruction : b.calls.countP Call.countsInstruction = 0 :=
      List.countP_eq_zero.mpr fun c member => by simp [(onlyAdds b c member).2.1]
    have noBasicBlock : b.calls.countP Call.countsBasicBlock = 0 :=
      List.countP_eq_zero.mpr fun c member => by simp [(onlyAdds b c member).2.2]
    have split : countedCalls (b :: blocks) = .incBasicBlockCount :: b.calls ++
        List.replicate b.instructions.length .incStaticInstructionCount ++
          countedCalls blocks := by
      rw [countedCalls, List.flatMap_cons]
      rfl
    rw [split]
    refine ⟨?_, ?_, ?_⟩
    · rw [List.filter_append, List.filter_append, ih.adds, List.flatMap_cons]
      simp [adds, Call.adds]
    · rw [List.countP_append, List.countP_append, ih.instructions]
      simp [noInstruction, Call.countsInstruction, List.countP_replicate]
    · rw [List.countP_append, List.countP_append, ih.basicBlocks]
      simp [List.countP_cons, noBasicBlock, Call.countsBasicBlock, List.countP_replicate,
        Nat.add_comm]

/-- With 2^32 blocks the counter is back at zero, and the dictionary is empty. -/
theorem no_roundTrips_of_wrapped {blocks : List PlacedBlock} {calls : List Call}
    (session : Session blocks calls) (wrapped : blocks.length = 4294967296) :
    ¬ RoundTrips blocks calls := by
  rintro ⟨file, r, dict, written, _, opened, generated, describes⟩
  obtain ⟨file', r', written', _, opened', _, _, bbls⟩ := session_file session
  rw [written] at written'
  cases written'
  rw [opened] at opened'
  cases opened'
  have none : r.getTotalBasicBlocks = 0 := by
    rw [StaticTraceReader.getTotalBasicBlocks, bbls, wrapped]
    rfl
  have sizes := congrArg List.length describes.sizes
  rw [generateInstructionDict, none] at generated
  split at generated
  · cases generated
  · cases generated
    rw [List.length_map, List.length_map, wrapped] at sizes
    cases sizes

/-- A block of one instruction of zeros, with its size behind it. -/
def sizeLast : PlacedBlock where
  before := [{}]
  after := []
  nonempty := by simp
  size_lt := by simp

/-- A block of two, with its size between them. -/
def sizeBetween : PlacedBlock where
  before := [{}]
  after := [{}]
  nonempty := by simp
  size_lt := by simp

theorem static_round_trip_two :
    RoundTrips [sizeLast, sizeBetween] (countedCalls [sizeLast, sizeBetween]) :=
  static_round_trip _ _ (session_countedCalls _) (by decide)

theorem static_round_trip_wraps :
    Session (List.replicate 4294967296 sizeLast)
        (countedCalls (List.replicate 4294967296 sizeLast)) ∧
      ¬ RoundTrips (List.replicate 4294967296 sizeLast)
        (countedCalls (List.replicate 4294967296 sizeLast)) :=
  ⟨session_countedCalls _,
    no_roundTrips_of_wrapped (session_countedCalls _) List.length_replicate⟩

end Sinuca3.Guarantees
