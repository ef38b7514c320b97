import Sinuca3.Source.Tracer.StaticTrace

/-!
# What the dictionary keeps of an instruction of the trace

The translation of a record copies every field that the two structures share but one: it
never assigns the hint of a prefetch, which stays as it was in the dictionary.
-/
namespace Sinuca3.Guarantees
open Lib Source

/-- The first registers of an array are those of another. -/
def SameRegisters (count : Nat) (raw info : Vector (BitVec 16) maxRegisters) : Prop :=
  ∀ j < count, ∃ reg, raw[j]? = some reg ∧ info[j]? = some reg

/-- Some flag that makes an instruction a branch. -/
def Branches (raw : Instruction) : Prop :=
  raw.isCallInstruction ≠ 0 ∨ raw.isSyscallInstruction ≠ 0 ∨ raw.isRetInstruction ≠ 0 ∨
    raw.isSysretInstruction ≠ 0 ∨ raw.isBranchInstruction ≠ 0

/-- The characters of a mnemonic, up to its terminator. -/
def SameMnemonic (raw : Vector (BitVec 8) instMnemonicLen) (text : String) : Prop :=
  ∃ rest, raw.toList = text.toList.map (fun c => BitVec.ofNat 8 c.toNat) ++ 0 :: rest

/-- The fields that the two structures share, and the type of the branch. -/
structure Agrees (raw : Instruction) (info : StaticInstructionInfo) : Prop where
  instAddress : info.instAddress = raw.instructionAddress
  instSize : info.instSize = raw.instructionSize
  instMnemonic : SameMnemonic raw.instructionMnemonic info.instMnemonic
  numberOfReadRegs : info.numberOfReadRegs = raw.rRegsArrayOccupation
  numberOfWriteRegs : info.numberOfWriteRegs = raw.wRegsArrayOccupation
  readRegsArray :
    SameRegisters raw.rRegsArrayOccupation.toNat raw.readRegsArray info.readRegsArray
  writtenRegsArray :
    SameRegisters raw.wRegsArrayOccupation.toNat raw.writtenRegsArray info.writtenRegsArray
  isPrefetchHintInst : info.isPrefetchHintInst = true ↔ raw.isPrefetchHintInst ≠ 0
  isPredicatedInst : info.isPredicatedInst = true ↔ raw.isPredicatedInst ≠ 0
  isIndirectControlFlowInst :
    info.isIndirectControlFlowInst = true ↔ raw.isIndirectCtrlFlowInst ≠ 0
  instCausesCacheLineFlush :
    info.instCausesCacheLineFlush = true ↔ raw.instCausesCacheLineFlush ≠ 0
  instPerformsAtomicUpdate :
    info.instPerformsAtomicUpdate = true ↔ raw.instPerformsAtomicUpdate ≠ 0
  instReadsMemory : info.instReadsMemory = true ↔ raw.instReadsMemory ≠ 0
  instWritesMemory : info.instWritesMemory = true ↔ raw.instWritesMemory ≠ 0
  branchType : info.branchType = .none ↔ ¬ Branches raw

theorem copyRegs_same {occupation : BitVec 8} (few : occupation.toNat ≤ maxRegisters)
    (src dest : Vector (BitVec 16) maxRegisters) :
    SameRegisters occupation.toNat src (copyRegs occupation src dest) := by
  intro j below
  have inside : j < maxRegisters := Nat.lt_of_lt_of_le below few
  refine ⟨src[j], Vector.getElem?_eq_getElem inside, ?_⟩
  rw [copyRegs, Vector.getElem?_eq_getElem inside, Vector.getElem_ofFn, if_pos below]
  rfl

/-- An octet as a character and back. -/
theorem octet_of_char (c : BitVec 8) : BitVec.ofNat 8 (Char.ofNat c.toNat).toNat = c := by
  have small := c.isLt
  have valid : c.toNat.isValidChar := Or.inl (by omega)
  have same : (Char.ofNat c.toNat).toNat = c.toNat := by
    rw [Char.ofNat, dif_pos valid]
    rfl
  rw [same, BitVec.ofNat_toNat, BitVec.setWidth_eq]

theorem mnemonicString_same {mnemonic : Vector (BitVec 8) instMnemonicLen}
    (terminated : 0 ∈ mnemonic.toList) : SameMnemonic mnemonic (mnemonicString mnemonic) := by
  obtain ⟨front, rest, split, plain⟩ := List.eq_append_cons_of_mem terminated
  have passes : ∀ c ∈ front, decide (c ≠ 0) = true := by
    intro c member
    exact decide_eq_true fun zero => plain (zero ▸ member)
  refine ⟨rest, ?_⟩
  rw [mnemonicString, String.toList_ofList, List.map_map, split,
    List.takeWhile_append_of_pos passes, List.takeWhile_cons_of_neg (by decide), List.append_nil]
  congr 1
  calc front = front.map id := (List.map_id front).symm
    _ = _ := List.map_congr_left fun c _ => (octet_of_char c).symm

/-- The type stays as it was exactly when no flag is set. -/
theorem branchType_translated (raw : Instruction) (info : StaticInstructionInfo) :
    (translateRawInstructionToSinucaInst raw info).branchType = .none ↔
      ¬ Branches raw ∧ info.branchType = .none := by
  unfold translateRawInstructionToSinucaInst Branches
  dsimp only
  split_ifs with call syscall ret sysret branch fallthrough
  all_goals simp_all

/-- Everything but the hint of a prefetch and the type without a flag. -/
theorem translated_agrees_iff {raw : Instruction}
    (terminated : 0 ∈ raw.instructionMnemonic.toList)
    (fewRead : raw.rRegsArrayOccupation.toNat ≤ maxRegisters)
    (fewWritten : raw.wRegsArrayOccupation.toNat ≤ maxRegisters) (info : StaticInstructionInfo) :
    Agrees raw (translateRawInstructionToSinucaInst raw info) ↔
      (info.isPrefetchHintInst = true ↔ raw.isPrefetchHintInst ≠ 0) ∧
        (Branches raw ∨ info.branchType = .none) := by
  have types := branchType_translated raw info
  constructor
  · intro agrees
    have hint : info.isPrefetchHintInst = true ↔ raw.isPrefetchHintInst ≠ 0 :=
      agrees.isPrefetchHintInst
    refine ⟨hint, (Classical.em (Branches raw)).imp_right fun none => ?_⟩
    exact (types.mp (agrees.branchType.mpr none)).2
  · rintro ⟨hint, kind⟩
    exact {
      instAddress := rfl
      instSize := rfl
      instMnemonic := mnemonicString_same terminated
      numberOfReadRegs := rfl
      numberOfWriteRegs := rfl
      readRegsArray := copyRegs_same fewRead _ _
      writtenRegsArray := copyRegs_same fewWritten _ _
      isPrefetchHintInst := hint
      isPredicatedInst := decide_eq_true_iff
      isIndirectControlFlowInst := decide_eq_true_iff
      instCausesCacheLineFlush := decide_eq_true_iff
      instPerformsAtomicUpdate := decide_eq_true_iff
      instReadsMemory := decide_eq_true_iff
      instWritesMemory := decide_eq_true_iff
      branchType := types.trans
        ⟨fun none => none.1, fun none => ⟨none, kind.resolve_left none⟩⟩ }

/-- Every record with a terminated mnemonic and at most sixteen registers of each kind: the
dictionary's new instruction agrees with it when the record has no prefetch hint. -/
theorem dictionary_agrees_with_records (raw : Instruction)
    (terminated : 0 ∈ raw.instructionMnemonic.toList)
    (fewRead : raw.rRegsArrayOccupation.toNat ≤ maxRegisters)
    (fewWritten : raw.wRegsArrayOccupation.toNat ≤ maxRegisters) :
    (Agrees raw (translateRawInstructionToSinucaInst raw default) ↔
      raw.isPrefetchHintInst = 0) ∧
    ∀ info, Agrees raw (translateRawInstructionToSinucaInst raw info) ↔
      (info.isPrefetchHintInst = true ↔ raw.isPrefetchHintInst ≠ 0) ∧
        (Branches raw ∨ info.branchType = .none) := by
  have every := translated_agrees_iff terminated fewRead fewWritten
  refine ⟨(every default).trans ⟨fun agrees => ?_, fun zero => ⟨?_, .inr rfl⟩⟩, every⟩
  · by_contra hint
    cases agrees.1.mpr hint
  · exact ⟨nofun, fun hint => absurd zero hint⟩

/-- A call through memory that reads two registers and writes one. -/
def indirectCall : Instruction where
  instructionAddress := 0x401020
  instructionSize := 6
  readRegsArray := .ofFn fun i => if i.val = 0 then 10 else if i.val = 1 then 6 else 0
  writtenRegsArray := .ofFn fun i => if i.val = 0 then 6 else 0
  rRegsArrayOccupation := 2
  wRegsArrayOccupation := 1
  isCallInstruction := 1
  isIndirectCtrlFlowInst := 1
  instReadsMemory := 1
  instWritesMemory := 1
  instructionMnemonic := .ofFn fun i => [67, 65, 76, 76].getD i.val 0

theorem dictionary_agrees_with_records_of_call :
    Agrees indirectCall (translateRawInstructionToSinucaInst indirectCall default) ∧
    (translateRawInstructionToSinucaInst indirectCall default).instMnemonic = "CALL" :=
  ⟨(dictionary_agrees_with_records indirectCall (by decide) (by decide) (by decide)).1.mpr rfl,
    by decide⟩

/-- The hint of a prefetch is lost. -/
theorem prefetch_hint_lost :
    ¬ Agrees { isPrefetchHintInst := 1 }
      (translateRawInstructionToSinucaInst { isPrefetchHintInst := 1 } default) := by
  intro agrees
  have hint : false = true := agrees.isPrefetchHintInst.mpr (by decide)
  cases hint

end Sinuca3.Guarantees
