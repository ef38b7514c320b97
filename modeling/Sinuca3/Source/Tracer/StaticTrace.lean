import Sinuca3.Source.Tracer.FileHeader

/-!
# Static trace reader

`tracer/sinuca/utils/static_trace_reader.cpp` and `GenerateInstructionDict` of
`tracer/sinuca/trace_reader.cpp`. The file is mapped to memory and read a record at a
time; the dictionary is a pool of instructions and, for each basic block, its size
and the place in the pool where it starts.
-/
namespace Sinuca3.Source
open Lib

def instMnemonicLen : Nat := 26

/-- As the tracer extracts it; flags are octets. -/
structure Instruction where
  instructionAddress : BitVec 64 := 0
  instructionSize : BitVec 64 := 0
  readRegsArray : Vector (BitVec 16) maxRegisters := Vector.replicate maxRegisters 0
  writtenRegsArray : Vector (BitVec 16) maxRegisters := Vector.replicate maxRegisters 0
  wRegsArrayOccupation : BitVec 8 := 0
  rRegsArrayOccupation : BitVec 8 := 0
  instHasFallthrough : BitVec 8 := 0
  isBranchInstruction : BitVec 8 := 0
  isSyscallInstruction : BitVec 8 := 0
  isCallInstruction : BitVec 8 := 0
  isRetInstruction : BitVec 8 := 0
  isSysretInstruction : BitVec 8 := 0
  isPrefetchHintInst : BitVec 8 := 0
  isPredicatedInst : BitVec 8 := 0
  isIndirectCtrlFlowInst : BitVec 8 := 0
  instCausesCacheLineFlush : BitVec 8 := 0
  instPerformsAtomicUpdate : BitVec 8 := 0
  instReadsMemory : BitVec 8 := 0
  instWritesMemory : BitVec 8 := 0
  instructionMnemonic : Vector (BitVec 8) instMnemonicLen := Vector.replicate instMnemonicLen 0

namespace Instruction

/-- The thirteen flags, in order. -/
def flags (i : Instruction) : Vector (BitVec 8) 13 :=
  #v[i.instHasFallthrough, i.isBranchInstruction, i.isSyscallInstruction, i.isCallInstruction,
    i.isRetInstruction, i.isSysretInstruction, i.isPrefetchHintInst, i.isPredicatedInst,
    i.isIndirectCtrlFlowInst, i.instCausesCacheLineFlush, i.instPerformsAtomicUpdate,
    i.instReadsMemory, i.instWritesMemory]

def codec : Codec Instruction :=
  (Codec.u64.prod (Codec.u64.prod ((Codec.u16.vector maxRegisters).prod
      ((Codec.u16.vector maxRegisters).prod (Codec.u8.prod (Codec.u8.prod
        ((Codec.u8.vector 13).prod (Codec.u8.vector instMnemonicLen)))))))).retract
    (fun i => (i.instructionAddress, i.instructionSize, i.readRegsArray, i.writtenRegsArray,
      i.wRegsArrayOccupation, i.rRegsArrayOccupation, i.flags, i.instructionMnemonic))
    (fun p =>
      let f := p.2.2.2.2.2.2.1
      ⟨p.1, p.2.1, p.2.2.1, p.2.2.2.1, p.2.2.2.2.1, p.2.2.2.2.2.1, f[0], f[1], f[2], f[3], f[4],
        f[5], f[6], f[7], f[8], f[9], f[10], f[11], f[12], p.2.2.2.2.2.2.2⟩)
    fun _ => rfl

/-- `sizeof(Instruction)`. -/
theorem width_codec : codec.width = 121 := rfl

end Instruction

inductive StaticTraceRecordType where
  | instruction | basicBlockSize
  | unknown (code : BitVec 8)
  deriving DecidableEq

/-- The instruction member of the union and the tag octet. -/
structure StaticTraceRecord where
  instruction : Instruction := {}
  recordType : BitVec 8 := 0

namespace StaticTraceRecord

instance : Inhabited StaticTraceRecord := ⟨{}⟩

def codec : Codec StaticTraceRecord :=
  (Instruction.codec.prod .u8).retract (fun r => (r.instruction, r.recordType))
    (fun p => ⟨p.1, p.2⟩) fun _ => rfl

theorem width_codec : codec.width = 122 := rfl

def getRecordType (r : StaticTraceRecord) : StaticTraceRecordType :=
  if r.recordType = 0 then .instruction
  else if r.recordType = 1 then .basicBlockSize
  else .unknown r.recordType

/-- The 16-bit size shares the low octets of the address. -/
def basicBlockSize (r : StaticTraceRecord) : BitVec 16 :=
  r.instruction.instructionAddress.setWidth 16

/-- The record of a size, and below that of an instruction. -/
def ofSize (basicBlockSize : BitVec 32) : StaticTraceRecord where
  instruction := { instructionAddress := (basicBlockSize.setWidth 16).setWidth 64 }
  recordType := 1

def ofInstruction (instruction : Instruction) : StaticTraceRecord where
  instruction := instruction
  recordType := 0

end StaticTraceRecord

structure StaticTraceReader where
  header : FileHeader
  mmap : List Byte
  mmapOffset : Nat
  record : StaticTraceRecord := {}

namespace StaticTraceReader

/-- An empty file cannot be mapped. -/
def openFile (octets : List Byte) : Option StaticTraceReader :=
  if octets = [] then none
  else
    some {
      header := FileHeader.codec.decode (octets.take FileHeader.codec.width)
      mmap := octets
      mmapOffset := FileHeader.codec.width }

/-- What `ReadData` has not passed. -/
def remaining (r : StaticTraceReader) : List Byte := r.mmap.drop r.mmapOffset

/-- Behind the file its last page is zero. -/
def readStaticRecordFromFile (r : StaticTraceReader) : Option StaticTraceReader :=
  if r.mmap.length ≤ r.mmapOffset then none
  else
    some { r with
      record := StaticTraceRecord.codec.decode (r.remaining.take StaticTraceRecord.codec.width)
      mmapOffset := r.mmapOffset + StaticTraceRecord.codec.width }

def getTotalBasicBlocks (r : StaticTraceReader) : Nat := r.header.bblCount.toNat

/-- Assigned to an `int`. -/
def getTotalInstInStaticTrace (r : StaticTraceReader) : Int := r.header.instCount.toInt

end StaticTraceReader

/-- `memcpy` of the occupied registers. The tracer never counts more than there are. -/
def copyRegs (occupation : BitVec 8) (src dest : Vector (BitVec 16) maxRegisters) :
    Vector (BitVec 16) maxRegisters :=
  Vector.ofFn fun i => if i.val < occupation.toNat then src[i] else dest[i]

/-- The characters up to the terminator. -/
def mnemonicString (mnemonic : Vector (BitVec 8) instMnemonicLen) : String :=
  String.ofList ((mnemonic.toList.takeWhile fun c => c ≠ 0).map fun c => Char.ofNat c.toNat)

/-- What is not assigned stays as it was in `instInfo`. -/
def translateRawInstructionToSinucaInst (rawInst : Instruction) (instInfo : StaticInstructionInfo) :
    StaticInstructionInfo :=
  { instInfo with
    instMnemonic := mnemonicString rawInst.instructionMnemonic
    instSize := rawInst.instructionSize
    instAddress := rawInst.instructionAddress
    instPerformsAtomicUpdate := rawInst.instPerformsAtomicUpdate ≠ 0
    instCausesCacheLineFlush := rawInst.instCausesCacheLineFlush ≠ 0
    isPredicatedInst := rawInst.isPredicatedInst ≠ 0
    instReadsMemory := rawInst.instReadsMemory ≠ 0
    instWritesMemory := rawInst.instWritesMemory ≠ 0
    isIndirectControlFlowInst := rawInst.isIndirectCtrlFlowInst ≠ 0
    numberOfReadRegs := rawInst.rRegsArrayOccupation
    numberOfWriteRegs := rawInst.wRegsArrayOccupation
    readRegsArray :=
      copyRegs rawInst.rRegsArrayOccupation rawInst.readRegsArray instInfo.readRegsArray
    writtenRegsArray :=
      copyRegs rawInst.wRegsArrayOccupation rawInst.writtenRegsArray instInfo.writtenRegsArray
    branchType :=
      if rawInst.isCallInstruction ≠ 0 then .call
      else if rawInst.isSyscallInstruction ≠ 0 then .syscall
      else if rawInst.isRetInstruction ≠ 0 then .ret
      else if rawInst.isSysretInstruction ≠ 0 then .sysret
      else if rawInst.isBranchInstruction ≠ 0 then
        if rawInst.instHasFallthrough ≠ 0 then .cond else .uncond
      else instInfo.branchType }

/-- What `GenerateInstructionDict` fills; a pointer into the pool is an index. -/
structure InstructionDict where
  basicBlockSizeArr : List Nat := []
  instructionDict : List Nat := []
  instructionPool : List StaticInstructionInfo

/-- The loop over the instructions of one block, `pos` in the pool. -/
def instructionLoop : Nat → Nat → StaticTraceReader → List StaticInstructionInfo →
    Option (StaticTraceReader × List StaticInstructionInfo)
  | 0, _, r, pool => some (r, pool)
  | left + 1, pos, r, pool =>
    match r.readStaticRecordFromFile with
    | none => none
    | some r =>
      if r.record.getRecordType ≠ .instruction then none
      else
        instructionLoop left (pos + 1) r
          (pool.modify pos (translateRawInstructionToSinucaInst r.record.instruction))

/-- The loop over the basic blocks. -/
def blockLoop : Nat → Nat → StaticTraceReader → InstructionDict → Option InstructionDict
  | 0, _, _, dict => some dict
  | left + 1, poolOffset, r, dict =>
    match r.readStaticRecordFromFile with
    | none => none
    | some r =>
      if r.record.getRecordType ≠ .basicBlockSize then none
      else
        let bblSize := r.record.basicBlockSize.toNat
        let dict := { dict with
          basicBlockSizeArr := dict.basicBlockSizeArr ++ [bblSize]
          instructionDict := dict.instructionDict ++ [poolOffset] }
        match instructionLoop bblSize poolOffset r dict.instructionPool with
        | none => none
        | some (r, pool) =>
          blockLoop left (poolOffset + bblSize) r { dict with instructionPool := pool }

/-- `none` is a failure: a non-zero return code, or a pool of a negative size, for
which `new` throws. -/
def generateInstructionDict (r : StaticTraceReader) : Option InstructionDict :=
  if r.getTotalInstInStaticTrace < 0 then none
  else
    blockLoop r.getTotalBasicBlocks 0 r
      { instructionPool := List.replicate r.getTotalInstInStaticTrace.toNat default }

/-- A record next in the file is the one read. -/
theorem StaticTraceReader.readStaticRecordFromFile_cons (r : StaticTraceReader)
    (record : StaticTraceRecord) (rest : List Byte)
    (next : r.remaining = StaticTraceRecord.codec.encode record ++ rest) :
    ∃ r', r.readStaticRecordFromFile = some r' ∧ r'.record = record ∧ r'.remaining = rest := by
  have width := StaticTraceRecord.codec.length_encode record
  have inside : ¬ r.mmap.length ≤ r.mmapOffset := by
    intro past
    have none : r.remaining = [] := List.drop_eq_nil_of_le past
    rw [none] at next
    rw [(List.append_eq_nil_iff.mp next.symm).1] at width
    cases width
  refine ⟨_, by rw [readStaticRecordFromFile, if_neg inside], ?_, ?_⟩
  · dsimp only
    rw [next, ← width, List.take_left, Codec.decode_encode]
  · have later : r.remaining.drop StaticTraceRecord.codec.width = rest := by
      rw [next, ← width, List.drop_left]
    rw [← later]
    exact List.drop_drop.symm

/-- A file of a header and some octets, opened. -/
theorem StaticTraceReader.openFile_encode (header : FileHeader) (data : List Byte) :
    ∃ r, openFile (FileHeader.codec.encode header ++ data) = some r ∧ r.header = header ∧
      r.remaining = data := by
  have width := FileHeader.codec.length_encode header
  have nonempty : FileHeader.codec.encode header ++ data ≠ [] := by
    intro none
    rw [(List.append_eq_nil_iff.mp none).1] at width
    cases width
  refine ⟨_, by rw [openFile, if_neg nonempty], ?_, ?_⟩
  · rw [← width, List.take_left, Codec.decode_encode]
  · rw [remaining, ← width, List.drop_left]

/-- The static information of an instruction of the trace. -/
def translated (i : Instruction) : StaticInstructionInfo :=
  translateRawInstructionToSinucaInst i default

/-- What the trace holds for one basic block. -/
def blockRecords (block : List Instruction) : List StaticTraceRecord :=
  .ofSize (BitVec.ofNat 32 block.length) :: block.map .ofInstruction

/-- The cell behind the filled ones is the one modified. -/
theorem modify_behind {α : Type} (filled free : List α) (cell : α) (f : α → α) :
    (filled ++ cell :: free).modify filled.length f = filled ++ f cell :: free := by
  induction filled with
  | nil => rfl
  | cons a filled ih =>
    rw [List.cons_append, List.length_cons, List.modify_succ_cons, ih, List.cons_append]

theorem instructionLoop_block (block : List Instruction) (rest : List Byte)
    (r : StaticTraceReader)
    (next : r.remaining =
      (block.map StaticTraceRecord.ofInstruction).flatMap StaticTraceRecord.codec.encode ++ rest)
    (filled free : List StaticInstructionInfo) :
    ∃ r', instructionLoop block.length filled.length r
        (filled ++ (List.replicate block.length default ++ free)) =
        some (r', filled ++ (block.map translated ++ free)) ∧ r'.remaining = rest := by
  induction block generalizing r filled with
  | nil => exact ⟨r, rfl, next⟩
  | cons i block ih =>
    rw [List.map_cons, List.flatMap_cons, List.append_assoc] at next
    obtain ⟨r', read, record, later⟩ := r.readStaticRecordFromFile_cons _ _ next
    obtain ⟨r'', looped, after⟩ := ih r' later (filled ++ [translated i])
    have pos : (filled ++ [translated i]).length = filled.length + 1 := List.length_append
    have stored := modify_behind filled (List.replicate block.length default ++ free) default
      (translateRawInstructionToSinucaInst i)
    have kind : r'.record.getRecordType = .instruction := by rw [record]; rfl
    have raw : r'.record.instruction = i := by rw [record]; rfl
    refine ⟨r'', ?_, after⟩
    rw [List.length_cons, List.replicate_succ, List.cons_append, instructionLoop, read]
    dsimp only
    rw [if_neg (by simp [kind]), raw, stored]
    rw [pos, List.append_assoc] at looped
    rw [List.map_cons, List.cons_append]
    simpa [translated] using looped

/-- One iteration of the loop over the basic blocks. -/
theorem blockLoop_block (left : Nat) (block : List Instruction) (size : block.length < 65536)
    (rest : List Byte) (r : StaticTraceReader)
    (next : r.remaining = (blockRecords block).flatMap StaticTraceRecord.codec.encode ++ rest)
    (sizes starts : List Nat) (filled free : List StaticInstructionInfo) :
    ∃ r', r'.remaining = rest ∧
      blockLoop (left + 1) filled.length r
          ⟨sizes, starts, filled ++ (List.replicate block.length default ++ free)⟩ =
        blockLoop left (filled ++ block.map translated).length r'
          ⟨sizes ++ [block.length], starts ++ [filled.length],
            (filled ++ block.map translated) ++ free⟩ := by
  rw [blockRecords, List.flatMap_cons, List.append_assoc] at next
  obtain ⟨r', read, record, later⟩ := r.readStaticRecordFromFile_cons _ _ next
  obtain ⟨r'', looped, after⟩ := instructionLoop_block block rest r' later filled free
  have kind : r'.record.getRecordType = .basicBlockSize := by rw [record]; rfl
  have count : r'.record.basicBlockSize.toNat = block.length := by
    rw [record]
    simp only [StaticTraceRecord.basicBlockSize, StaticTraceRecord.ofSize, BitVec.toNat_setWidth,
      BitVec.toNat_ofNat]
    omega
  refine ⟨r'', after, ?_⟩
  rw [blockLoop, read]
  dsimp only
  rw [if_neg (by simp [kind]), count, looped]
  simp

/-- The sum of the sizes of the first blocks. -/
def startOf (blocks : List (List Instruction)) (k : Nat) : Nat :=
  ((blocks.take k).map List.length).sum

theorem blockLoop_blocks (blocks : List (List Instruction))
    (sizes_lt : ∀ block ∈ blocks, block.length < 65536) (rest : List Byte) (r : StaticTraceReader)
    (next : r.remaining =
      (blocks.flatMap blockRecords).flatMap StaticTraceRecord.codec.encode ++ rest)
    (sizes starts : List Nat) (filled : List StaticInstructionInfo) :
    blockLoop blocks.length filled.length r
        ⟨sizes, starts, filled ++ List.replicate (blocks.map List.length).sum default⟩ =
      some ⟨sizes ++ blocks.map List.length,
        starts ++ (List.range blocks.length).map fun k => filled.length + startOf blocks k,
        filled ++ blocks.flatMap fun block => block.map translated⟩ := by
  induction blocks generalizing r sizes starts filled with
  | nil => simp [blockLoop]
  | cons block blocks ih =>
    rw [List.flatMap_cons, List.flatMap_append, List.append_assoc] at next
    obtain ⟨r', later, step⟩ := blockLoop_block blocks.length block
      (sizes_lt block (List.mem_cons_self ..)) _ r next sizes starts filled
      (List.replicate (blocks.map List.length).sum default)
    have after := ih (fun b member => sizes_lt b (List.mem_cons_of_mem block member)) r' later
      (sizes ++ [block.length]) (starts ++ [filled.length]) (filled ++ block.map translated)
    have room : List.replicate ((block :: blocks).map List.length).sum
        (default : StaticInstructionInfo) =
        List.replicate block.length default ++
          List.replicate (blocks.map List.length).sum default := by
      rw [List.map_cons, List.sum_cons, List.replicate_append_replicate]
    rw [room, List.length_cons, step, after, List.range_succ_eq_map]
    simp [startOf, Nat.add_assoc, Function.comp_def]

end Sinuca3.Source
