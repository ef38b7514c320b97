import Sinuca3.Source.Tracer.StaticTraceAccess

/-!
# Safety of the static trace loader

The loader bounds its reads by the size of the file only where a record starts, and
trusts the counts in the header, in the records of sizes and in the instructions. Which
files it loads without an access out of bounds is a matter of the records its counts
lead it to.
-/
namespace Sinuca3.Guarantees
open Sinuca3.Source Lib

/-- `OpenFile` fails, or the arrays can be allocated and no access is out of bounds. -/
def LoadsSafely (octets : List Byte) : Prop :=
  match StaticTraceReader.openFile octets with
  | none => True
  | some r => 0 ≤ r.getTotalInstInStaticTrace ∧ ∀ a ∈ loadAccesses r, a.InBounds r.bounds

/-- Registers that fit in the arrays, and a terminated mnemonic. -/
def TranslationFits (i : Instruction) : Prop :=
  i.rRegsArrayOccupation.toNat ≤ maxRegisters ∧ i.wRegsArrayOccupation.toNat ≤ maxRegisters ∧
    0 ∈ i.instructionMnemonic.toList

/-- Of the records, those that the counts lead to, with so many blocks to come, so many
instructions left of the current one and so many before: up to the first of another type
each instruction has room in the pool and can be translated, and where the records run
out the file does. -/
def RecordsFit (room : Nat) (cutShort : Bool) : List StaticTraceRecord → Nat → Nat → Nat → Prop
  | [], blocks, left, _ => blocks = 0 ∧ left = 0 ∨ cutShort = false
  | _ :: _, 0, 0, _ => True
  | r :: rest, blocks + 1, 0, position =>
    r.getRecordType = .basicBlockSize →
      RecordsFit room cutShort rest blocks r.basicBlockSize.toNat position
  | r :: rest, blocks, left + 1, position =>
    r.getRecordType = .instruction →
      position < room ∧ TranslationFits r.instruction ∧
        RecordsFit room cutShort rest blocks left (position + 1)

/-- Empty, or with a whole header whose counts the file lives up to. -/
def FileFits (octets : List Byte) : Prop :=
  let header := FileHeader.codec.decode (octets.take FileHeader.codec.width)
  let data := octets.drop FileHeader.codec.width
  octets = [] ∨
    FileHeader.codec.width ≤ octets.length ∧ 0 ≤ header.instCount.toInt ∧
      RecordsFit header.instCount.toInt.toNat
        (data.length % StaticTraceRecord.codec.width ≠ 0)
        (StaticTraceRecord.codec.records data) header.bblCount.toNat 0 0

/-- A string is shorter than its array exactly when it is terminated in it. -/
theorem mnemonicLength_lt (mnemonic : Vector (BitVec 8) instMnemonicLen) :
    mnemonicLength mnemonic < instMnemonicLen ↔ 0 ∈ mnemonic.toList := by
  have short : ∀ characters : List (BitVec 8),
      (characters.takeWhile fun c => decide (c ≠ 0)).length < characters.length ↔
        0 ∈ characters := by
    intro characters
    induction characters with
    | nil => simp
    | cons c characters ih =>
      rw [List.takeWhile_cons, List.mem_cons]
      by_cases terminator : c = 0
      · rw [if_neg (by simp [terminator])]
        simp [terminator]
      · rw [if_pos (decide_eq_true terminator), List.length_cons, List.length_cons,
          Nat.add_lt_add_iff_right, ih]
        exact (or_iff_right fun same => terminator same.symm).symm
  have whole := short mnemonic.toList
  rw [Vector.length_toList] at whole
  exact whole

section Loops

variable (bounds : MemoryBounds) (cutShort : Bool)

theorem translateAccesses_inBounds (position : Nat) (i : Instruction) :
    (∀ a ∈ translateAccesses position i, a.InBounds bounds) ↔
      position < bounds.totalStaticInst ∧ TranslationFits i := by
  simp only [translateAccesses, List.forall_mem_cons, List.not_mem_nil, false_implies,
    implies_true, and_true, MemoryAccess.InBounds, mnemonicLength_lt, TranslationFits]
  constructor
  · rintro ⟨pool, terminated, read, written⟩
    exact ⟨pool, read, written, terminated⟩
  · rintro ⟨pool, read, written, terminated⟩
    exact ⟨pool, terminated, read, written⟩

/-- The octets after the header end in a record cut short. -/
def EndsCut (rest : List Byte) : Prop :=
  cutShort = true ↔ rest.length % StaticTraceRecord.codec.width ≠ 0

theorem EndsCut.drop {cutShort : Bool} {rest : List Byte} (ends : EndsCut cutShort rest)
    (whole : StaticTraceRecord.codec.width ≤ rest.length) :
    EndsCut cutShort (rest.drop StaticTraceRecord.codec.width) := by
  unfold EndsCut at ends ⊢
  rw [List.length_drop, ← Nat.mod_eq_sub_mod whole]
  exact ends

theorem EndsCut.whole {cutShort : Bool} (ends : EndsCut cutShort []) : cutShort = false := by
  unfold EndsCut at ends
  simpa using ends

theorem EndsCut.cut {cutShort : Bool} {rest : List Byte} (ends : EndsCut cutShort rest)
    (some : rest ≠ []) (short : rest.length < StaticTraceRecord.codec.width) :
    cutShort = true := by
  unfold EndsCut at ends
  rw [ends, Nat.mod_eq_of_lt short]
  exact Nat.ne_of_gt (List.length_pos_iff.mpr some)

/-- The loop over the instructions of a block, and whatever follows when it succeeds. -/
theorem instructionAccesses_inBounds (blocks left position : Nat) (r : StaticTraceReader)
    (rest : List Byte) (pool : List StaticInstructionInfo)
    (reads : r.Reads bounds rest) (ends : EndsCut cutShort rest)
    (next : StaticTraceReader → List StaticInstructionInfo → Prop)
    (after : ∀ r' rest' pool', r'.Reads bounds rest' → EndsCut cutShort rest' →
      (next r' pool' ↔ RecordsFit bounds.totalStaticInst cutShort
        (StaticTraceRecord.codec.records rest') blocks 0 (position + left))) :
    ((∀ a ∈ instructionAccesses left position r, a.InBounds bounds) ∧
        ∀ r' pool', instructionLoop left position r pool = some (r', pool') → next r' pool') ↔
      RecordsFit bounds.totalStaticInst cutShort (StaticTraceRecord.codec.records rest) blocks left
        position := by
  induction left generalizing position r rest pool with
  | zero =>
    have here := after r rest pool reads ends
    rw [Nat.add_zero] at here
    rw [← here]
    simp [instructionAccesses, instructionLoop]
  | succ left ih =>
    unfold instructionAccesses instructionLoop
    rcases reads.cases with ⟨rfl, read⟩ | ⟨some, short, outside, r', read⟩ |
      ⟨whole, inside, r', read, record, reads'⟩
    · rw [read, Codec.records_nil]
      simp [RecordsFit, ends.whole]
    · rw [read, Codec.records_short _ _ short]
      simp [RecordsFit, ends.cut some short, outside]
    · rw [read, StaticTraceRecord.codec.records_cons (by decide) rest whole, ← record]
      dsimp only
      rw [List.forall_mem_cons, RecordsFit]
      split
      · rename_i other
        simp [other, inside]
      · rename_i kind
        have later := ih (position + 1) r' _
          (pool.modify position (translateRawInstructionToSinucaInst r'.record.instruction))
          reads' (ends.drop whole) fun r' rest' pool' => by
            rw [Nat.add_assoc, Nat.add_comm 1 left]
            exact after r' rest' pool'
        rw [List.forall_mem_append, translateAccesses_inBounds, ← later, and_assoc, and_assoc]
        simp [not_not.mp kind, inside, and_assoc]

/-- The loop over the basic blocks. -/
theorem blockAccesses_inBounds (left poolOffset : Nat) (r : StaticTraceReader) (rest : List Byte)
    (dict : InstructionDict) (reads : r.Reads bounds rest) (ends : EndsCut cutShort rest)
    (counted : dict.basicBlockSizeArr.length + left = bounds.totalBasicBlocks) :
    (∀ a ∈ blockAccesses left poolOffset r dict, a.InBounds bounds) ↔
      RecordsFit bounds.totalStaticInst cutShort (StaticTraceRecord.codec.records rest) left 0
        poolOffset := by
  induction left generalizing poolOffset r rest dict with
  | zero =>
    unfold blockAccesses
    cases StaticTraceRecord.codec.records rest <;> simp [RecordsFit]
  | succ left ih =>
    unfold blockAccesses
    rcases reads.cases with ⟨rfl, read⟩ | ⟨some, short, outside, r', read⟩ |
      ⟨whole, inside, r', read, record, reads'⟩
    · rw [read, Codec.records_nil]
      simp [RecordsFit, ends.whole]
    · rw [read, Codec.records_short _ _ short]
      simp [RecordsFit, ends.cut some short, outside]
    · rw [read, StaticTraceRecord.codec.records_cons (by decide) rest whole, ← record]
      dsimp only
      rw [List.forall_mem_cons, RecordsFit]
      split
      · rename_i other
        simp [other, inside]
      · rename_i kind
        have block : (MemoryAccess.block dict.basicBlockSizeArr.length).InBounds bounds := by
          simp only [MemoryAccess.InBounds]
          omega
        have later := instructionAccesses_inBounds bounds cutShort left
          r'.record.basicBlockSize.toNat poolOffset r' _ dict.instructionPool reads'
          (ends.drop whole)
          (fun r'' pool => ∀ a ∈ blockAccesses left (poolOffset + r'.record.basicBlockSize.toNat)
            r'' ⟨dict.basicBlockSizeArr ++ [r'.record.basicBlockSize.toNat],
              dict.instructionDict ++ [poolOffset], pool⟩, a.InBounds bounds)
          fun r'' rest' pool reads'' ends' => ih _ r'' rest' _ reads'' ends' (by
            rw [List.length_append, List.length_singleton]
            omega)
        rw [List.cons_append, List.forall_mem_cons, List.forall_mem_append, ← later]
        simp only [inside, block, true_and, not_not.mp kind, forall_const]
        refine and_congr_right fun _ => ?_
        cases instructionLoop r'.record.basicBlockSize.toNat poolOffset r' dict.instructionPool with
        | none => simp
        | some result => simp [Prod.ext_iff]

end Loops

/-- For every file: the loader fails or completes without an access out of bounds if and
only if the file is empty, or has a whole header with a number of instructions that an
`int` holds and the records that its counts lead to are whole, have room in the pool, at
most `MAX_REGISTERS` registers and a terminated mnemonic. -/
theorem static_trace_loads_safely (octets : List Byte) :
    LoadsSafely octets ↔ FileFits octets := by
  unfold LoadsSafely FileFits StaticTraceReader.openFile
  by_cases empty : octets = []
  · simp [empty]
  rw [if_neg empty]
  simp only [empty, false_or]
  generalize reader : StaticTraceReader.mk
    (FileHeader.codec.decode (octets.take FileHeader.codec.width)) octets
    FileHeader.codec.width {} = r
  have header : r.header = FileHeader.codec.decode (octets.take FileHeader.codec.width) := by
    rw [← reader]
  have mmap : r.mmap = octets := by rw [← reader]
  have offset : r.mmapOffset = FileHeader.codec.width := by rw [← reader]
  have whole : (MemoryAccess.mapping 0 FileHeader.codec.width).InBounds r.bounds ↔
      FileHeader.codec.width ≤ octets.length := by
    simp [MemoryAccess.InBounds, StaticTraceReader.bounds, mmap]
  have total : r.getTotalInstInStaticTrace =
      (FileHeader.codec.decode (octets.take FileHeader.codec.width)).instCount.toInt := by
    rw [StaticTraceReader.getTotalInstInStaticTrace, header]
  have reads : r.Reads r.bounds (octets.drop FileHeader.codec.width) := by
    constructor
    · rw [StaticTraceReader.remaining, mmap, offset]
    · intro some
      have long := List.length_pos_iff.mpr some
      rw [List.length_drop] at long ⊢
      simp only [StaticTraceReader.bounds, mmap, offset]
      omega
  have blocks := blockAccesses_inBounds r.bounds
    (decide ((octets.drop FileHeader.codec.width).length % StaticTraceRecord.codec.width ≠ 0))
    r.getTotalBasicBlocks 0 r _
    { instructionPool := List.replicate r.getTotalInstInStaticTrace.toNat default }
    reads decide_eq_true_iff (Nat.zero_add _)
  rw [← total, loadAccesses, List.forall_mem_cons, whole, blocks]
  simp only [StaticTraceReader.bounds, StaticTraceReader.getTotalBasicBlocks, header]
  exact and_left_comm

/-- A header that counts one block and no instruction, and a block of one instruction. -/
def crowdedStaticTrace : List Byte :=
  FileHeader.codec.encode (FileHeader.create.setStaticHeader 0 1 0) ++
    [StaticTraceRecord.ofSize 1, StaticTraceRecord.ofInstruction {}].flatMap
      StaticTraceRecord.codec.encode

theorem crowded_static_trace_overruns : ¬ ∀ octets, LoadsSafely octets := by
  have overruns : ¬ LoadsSafely crowdedStaticTrace := by
    intro safe
    have inBounds : ∀ r, StaticTraceReader.openFile crowdedStaticTrace = some r →
        ∀ a ∈ loadAccesses r, a.InBounds r.bounds := by
      intro r opened
      unfold LoadsSafely at safe
      rw [opened] at safe
      exact safe.2
    have pool := inBounds _ rfl (.pool 0) (by decide +kernel)
    exact absurd pool (by decide +kernel)
  exact fun safe => overruns (safe _)

end Sinuca3.Guarantees
