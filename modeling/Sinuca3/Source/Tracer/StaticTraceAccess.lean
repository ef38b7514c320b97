import Sinuca3.Source.Tracer.StaticTrace

/-!
# Memory accesses of the static trace loader

What `OpenFile` and `GenerateInstructionDict` read of the mapped file and write to the
arrays they fill, in order. The functions of `StaticTrace` do what the source does as
long as no access is out of bounds; the accesses follow them past the first that is.
-/
namespace Sinuca3.Source
open Lib

inductive MemoryAccess where
  /-- So many octets of the mapping. -/
  | mapping (offset length : Nat)
  /-- `basicBlockSizeArr` and `instructionDict`. -/
  | block (bblCounter : Nat)
  | pool (position : Nat)
  /-- The `memcpy` of so many registers between arrays of `MAX_REGISTERS`. -/
  | registers (occupation : Nat)
  /-- The `strcpy` of so many characters and a terminator. -/
  | mnemonic (characters : Nat)
  deriving DecidableEq

/-- Sizes of what the accesses go to. -/
structure MemoryBounds where
  mmapSize : Nat
  totalBasicBlocks : Nat
  totalStaticInst : Nat

def MemoryAccess.InBounds (bounds : MemoryBounds) : MemoryAccess → Prop
  | .mapping offset length => offset + length ≤ bounds.mmapSize
  | .block bblCounter => bblCounter < bounds.totalBasicBlocks
  | .pool position => position < bounds.totalStaticInst
  | .registers occupation => occupation ≤ maxRegisters
  | .mnemonic characters => characters < instMnemonicLen

instance (bounds : MemoryBounds) : DecidablePred (MemoryAccess.InBounds bounds)
  | .mapping _ _ => inferInstanceAs (Decidable (_ ≤ _))
  | .block _ => inferInstanceAs (Decidable (_ < _))
  | .pool _ => inferInstanceAs (Decidable (_ < _))
  | .registers _ => inferInstanceAs (Decidable (_ ≤ _))
  | .mnemonic _ => inferInstanceAs (Decidable (_ < _))

/-- The length `strcpy` finds: without a terminator in the array it stops at the tag of
the record, which is zero. -/
def mnemonicLength (mnemonic : Vector (BitVec 8) instMnemonicLen) : Nat :=
  (mnemonic.toList.takeWhile fun c => c ≠ 0).length

/-- `TranslateRawInstructionToSinucaInst`, into the pool. -/
def translateAccesses (position : Nat) (rawInst : Instruction) : List MemoryAccess :=
  [.pool position, .mnemonic (mnemonicLength rawInst.instructionMnemonic),
    .registers rawInst.rRegsArrayOccupation.toNat, .registers rawInst.wRegsArrayOccupation.toNat]

/-- `instructionLoop`; the octet of a record read in any case is its last, the tag. -/
def instructionAccesses : Nat → Nat → StaticTraceReader → List MemoryAccess
  | 0, _, _ => []
  | left + 1, pos, r =>
    match r.readStaticRecordFromFile with
    | none => []
    | some r' =>
      .mapping r.mmapOffset StaticTraceRecord.codec.width ::
        if r'.record.getRecordType ≠ .instruction then []
        else translateAccesses pos r'.record.instruction ++ instructionAccesses left (pos + 1) r'

/-- `blockLoop`. -/
def blockAccesses : Nat → Nat → StaticTraceReader → InstructionDict → List MemoryAccess
  | 0, _, _, _ => []
  | left + 1, poolOffset, r, dict =>
    match r.readStaticRecordFromFile with
    | none => []
    | some r' =>
      .mapping r.mmapOffset StaticTraceRecord.codec.width ::
        if r'.record.getRecordType ≠ .basicBlockSize then []
        else
          let bblSize := r'.record.basicBlockSize.toNat
          let block := dict.basicBlockSizeArr.length
          let dict := { dict with
            basicBlockSizeArr := dict.basicBlockSizeArr ++ [bblSize]
            instructionDict := dict.instructionDict ++ [poolOffset] }
          .block block :: instructionAccesses bblSize poolOffset r' ++
            match instructionLoop bblSize poolOffset r' dict.instructionPool with
            | none => []
            | some (r, pool) =>
              blockAccesses left (poolOffset + bblSize) r { dict with instructionPool := pool }

def StaticTraceReader.bounds (r : StaticTraceReader) : MemoryBounds where
  mmapSize := r.mmap.length
  totalBasicBlocks := r.getTotalBasicBlocks
  totalStaticInst := r.getTotalInstInStaticTrace.toNat

/-- Those of `OpenFile`, which loads the header, and of `GenerateInstructionDict`. -/
def loadAccesses (r : StaticTraceReader) : List MemoryAccess :=
  .mapping 0 FileHeader.codec.width ::
    blockAccesses r.getTotalBasicBlocks 0 r
      { instructionPool := List.replicate r.getTotalInstInStaticTrace.toNat default }

/-- A reader somewhere in its file, or past its end. -/
structure StaticTraceReader.Reads (r : StaticTraceReader) (bounds : MemoryBounds)
    (rest : List Byte) : Prop where
  remaining : r.remaining = rest
  place : rest ≠ [] → r.mmapOffset + rest.length = bounds.mmapSize

/-- Reading a record: the file is over, or its last record is cut short, or the record
next in the file is read. -/
theorem StaticTraceReader.Reads.cases {r : StaticTraceReader} {bounds : MemoryBounds}
    {rest : List Byte} (reads : r.Reads bounds rest) :
    (rest = [] ∧ r.readStaticRecordFromFile = none) ∨
    (rest ≠ [] ∧ rest.length < StaticTraceRecord.codec.width ∧
      ¬ (MemoryAccess.mapping r.mmapOffset StaticTraceRecord.codec.width).InBounds bounds ∧
      ∃ r', r.readStaticRecordFromFile = some r') ∨
    (StaticTraceRecord.codec.width ≤ rest.length ∧
      (MemoryAccess.mapping r.mmapOffset StaticTraceRecord.codec.width).InBounds bounds ∧
      ∃ r', r.readStaticRecordFromFile = some r' ∧
        r'.record = StaticTraceRecord.codec.decode (rest.take StaticTraceRecord.codec.width) ∧
        r'.Reads bounds (rest.drop StaticTraceRecord.codec.width)) := by
  have width : StaticTraceRecord.codec.width = 122 := rfl
  have length : rest.length = r.mmap.length - r.mmapOffset := by
    rw [← reads.remaining]
    exact List.length_drop
  rcases Nat.eq_zero_or_pos rest.length with empty | some
  · refine .inl ⟨List.eq_nil_of_length_eq_zero empty, ?_⟩
    rw [readStaticRecordFromFile, if_pos (by omega)]
  · have nonempty : rest ≠ [] := List.ne_nil_of_length_pos some
    have place := reads.place nonempty
    have goes : r.readStaticRecordFromFile = Option.some { r with
        record := StaticTraceRecord.codec.decode
          (r.remaining.take StaticTraceRecord.codec.width)
        mmapOffset := r.mmapOffset + StaticTraceRecord.codec.width } := by
      rw [readStaticRecordFromFile, if_neg (by omega)]
    by_cases whole : StaticTraceRecord.codec.width ≤ rest.length
    · refine .inr (.inr ⟨whole, ?_, _, goes, ?_, ?_, ?_⟩)
      · simp only [MemoryAccess.InBounds]
        omega
      · rw [← reads.remaining]
      · rw [← reads.remaining]
        exact List.drop_drop.symm
      · intro _
        rw [List.length_drop]
        dsimp only
        omega
    · refine .inr (.inl ⟨nonempty, Nat.lt_of_not_le whole, ?_, _, goes⟩)
      simp only [MemoryAccess.InBounds]
      omega

end Sinuca3.Source
