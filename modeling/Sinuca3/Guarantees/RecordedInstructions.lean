import Mathlib.Tactic.IntervalCases
import Sinuca3.Guarantees.IntrinsicRegisters
import Sinuca3.Guarantees.TranslatedInstructions
import Sinuca3.Source.TraceGenerator.Instrumentation

/-!
# What a recorded instruction says

From Pin's answers about an instruction through its record to the dictionary of the reader.
An instruction with more registers than a record holds is recorded up to the first that has
no place. Where the reader looks for memory accesses is where the tool appends them, unless
the registers of an intrinsic have been copied over the flags.
-/
namespace Sinuca3.Guarantees
open Lib Source

/-- The instruction with other registers. -/
def withRegisters (inst : Instruction)
    (readRegsArray writtenRegsArray : Vector (BitVec 16) maxRegisters)
    (wRegsArrayOccupation rRegsArrayOccupation : BitVec 8) : Instruction :=
  { inst with readRegsArray, writtenRegsArray, wRegsArrayOccupation, rRegsArrayOccupation }

/-- Two instructions that differ in their registers at most. -/
def SameButRegisters (inst inst' : Instruction) : Prop :=
  ∃ r w m n, inst' = withRegisters inst r w m n

theorem SameButRegisters.trans {inst inst' inst'' : Instruction}
    (first : SameButRegisters inst inst') (second : SameButRegisters inst' inst'') :
    SameButRegisters inst inst'' := by
  obtain ⟨_, _, _, _, rfl⟩ := first
  obtain ⟨_, _, _, _, rfl⟩ := second
  exact ⟨_, _, _, _, rfl⟩

theorem storeRead_same {inst inst' : Instruction} {operand : PinOperand}
    (stored : storeRead inst operand = some inst') : SameButRegisters inst inst' := by
  unfold storeRead at stored
  split at stored
  · obtain ⟨array, _, rfl⟩ := Option.map_eq_some_iff.mp stored
    exact ⟨_, _, _, _, rfl⟩
  · cases stored
    exact ⟨_, _, _, _, rfl⟩

theorem storeWritten_same {inst inst' : Instruction} {operand : PinOperand}
    (stored : storeWritten inst operand = some inst') : SameButRegisters inst inst' := by
  unfold storeWritten at stored
  split at stored
  · obtain ⟨array, _, rfl⟩ := Option.map_eq_some_iff.mp stored
    exact ⟨_, _, _, _, rfl⟩
  · cases stored
    exact ⟨_, _, _, _, rfl⟩

/-- The loop over the operands touches nothing but the registers. -/
theorem translateOperandLoop_same (operands : List PinOperand) (inst : Instruction) :
    SameButRegisters inst (translateOperandLoop inst operands).2 := by
  induction operands generalizing inst with
  | nil => exact ⟨_, _, _, _, rfl⟩
  | cons operand operands ih =>
    rw [translateOperandLoop]
    split
    · exact ih inst
    · cases read : storeRead inst operand with
      | none => exact ⟨_, _, _, _, rfl⟩
      | some inst' =>
        dsimp only
        cases written : storeWritten inst' operand with
        | none => exact storeRead_same read
        | some inst'' =>
          exact ((storeRead_same read).trans (storeWritten_same written)).trans (ih inst'')

theorem translatePinInst_same (ins : INS) :
    SameButRegisters (translatePinFields ins) (translatePinInst ins).2 :=
  translateOperandLoop_same ins.operands _

section MemoryFlags

/-- The octets of the flags. -/
def flagsPlace : Nat := occupationPlace + 2

theorem flags_field :
    FieldAt Instruction.codec (Codec.u8.vector 13) flagsPlace Instruction.flags where
  inside := by decide
  decodes octets := by
    have behind : (((((octets.drop 8).drop 8).drop 32).drop 32).drop 1).drop 1 =
        octets.drop flagsPlace := by
      rw [List.drop_drop, List.drop_drop, List.drop_drop, List.drop_drop, List.drop_drop]
      rfl
    rw [Block.read, ← behind]
    have whole : ∀ f : Vector (BitVec 8) 13, #v[f[0], f[1], f[2], f[3], f[4], f[5], f[6], f[7],
        f[8], f[9], f[10], f[11], f[12]] = f := by
      intro f
      refine Vector.ext fun i inside => ?_
      interval_cases i <;> rfl
    exact whole _

theorem length_registerOctets_le (regs : Vector REG maxRegisters) (count : BitVec 8) :
    (registerOctets regs count).length ≤ count.toNat * 4 := List.length_take_le _ _

/-- The record of an intrinsic that writes at most eight registers has no flags. -/
theorem flags_intrinsicToSinucaInst (address size : BitVec 64) (info : IntrinsicInfo)
    (few : info.numWriteRegs.toNat ≤ 8) :
    (intrinsicToSinucaInst address size info).inst.flags = Vector.replicate 13 0 := by
  unfold intrinsicToSinucaInst
  dsimp only
  split
  · rfl
  · rename_i fewRead
    have read := length_registerOctets_le info.read info.numReadRegs
    have write := length_registerOctets_le info.write info.numWriteRegs
    unfold maxRegisters at fewRead
    have readApart : readRegsPlace + (registerOctets info.read info.numReadRegs).length ≤
        flagsPlace := by
      simp only [readRegsPlace, flagsPlace, occupationPlace]
      omega
    have writeApart : writtenRegsPlace + (registerOctets info.write info.numWriteRegs).length ≤
        flagsPlace := by
      simp only [writtenRegsPlace, flagsPlace, occupationPlace]
      omega
    have width : flagsPlace ≤ Instruction.codec.width := by decide
    split
    · exact (flags_field.copied_outside _ (Nat.le_trans readApart width) (.inr readApart)).trans rfl
    · rw [flags_field.copied_outside _ (Nat.le_trans writeApart width) (.inr writeApart)]
      exact (flags_field.copied_outside _ (Nat.le_trans readApart width) (.inr readApart)).trans rfl

theorem flagOctet_ne_zero (flag : Bool) : (decide (flagOctet flag ≠ 0)) = flag := by
  cases flag <;> rfl

/-- The reader looks for memory accesses where the tool appends them. -/
theorem accessesMemory_addedInstruction (intrinsics : List IntrinsicInfo)
    (few : ∀ info ∈ intrinsics, info.numWriteRegs.toNat ≤ 8) (ins : INS) :
    let info := translated (addedInstruction intrinsics ins)
    (info.instReadsMemory || info.instWritesMemory) = callsAppendToMemTrace intrinsics ins := by
  unfold callsAppendToMemTrace addedInstruction
  cases found : getIntrinsicInfo intrinsics ins with
  | none =>
    obtain ⟨r, w, m, n, same⟩ := translatePinInst_same ins
    simp only [same, translated, translateRawInstructionToSinucaInst, withRegisters,
      translatePinFields, flagOctet_ne_zero, Option.isNone_none, Bool.true_and]
  | some info =>
    have member : info ∈ intrinsics := by
      unfold getIntrinsicInfo at found
      split at found
      · cases found
      · exact List.mem_of_find?_eq_some found
    have flags := flags_intrinsicToSinucaInst ins.address ins.size info (few info member)
    have reads : (intrinsicToSinucaInst ins.address ins.size info).inst.instReadsMemory = 0 :=
      congrArg (fun f : Vector (BitVec 8) 13 => f[11]) flags
    have writes : (intrinsicToSinucaInst ins.address ins.size info).inst.instWritesMemory = 0 :=
      congrArg (fun f : Vector (BitVec 8) 13 => f[12]) flags
    simp [translated, translateRawInstructionToSinucaInst, reads, writes]

end MemoryFlags

section Registers

/-- As many registers as an array holds. -/
theorem RegistersIn.length_le {array : Vector (BitVec 16) maxRegisters} {occupation : BitVec 8}
    {regs : List REG} (recorded : RegistersIn array occupation regs) :
    regs.length ≤ maxRegisters := by
  by_contra more
  have inside : maxRegisters < regs.length := Nat.lt_of_not_le more
  have element := recorded.elements maxRegisters _ (List.getElem?_eq_getElem inside)
  rw [Vector.getElem?_eq_none (Nat.le_refl _)] at element
  cases element

theorem RegistersIn.storeReg_full {array : Vector (BitVec 16) maxRegisters}
    {occupation : BitVec 8} {regs : List REG} (recorded : RegistersIn array occupation regs)
    (full : regs.length = maxRegisters) (reg : REG) :
    Source.storeReg array occupation reg = none := by
  have count := recorded.count
  exact dif_neg (by omega)

theorem readRegs_cons (operand : PinOperand) (operands : List PinOperand) :
    readRegs (operand :: operands) = readRegs [operand] ++ readRegs operands := by
  rw [readRegs, ← List.singleton_append, List.filter_append, List.map_append]
  rfl

theorem writtenRegs_cons (operand : PinOperand) (operands : List PinOperand) :
    writtenRegs (operand :: operands) = writtenRegs [operand] ++ writtenRegs operands := by
  rw [writtenRegs, ← List.singleton_append, List.filter_append, List.map_append]
  rfl

/-- The registers that were recorded of those that there are: all of them, or as many as
there is place for. -/
structure LoopRecords (failed : Bool) (inst : Instruction) (allRead allWritten : List REG)
    (read written : List REG) : Prop where
  records : RecordsRegisters inst read written
  read_prefix : read <+: allRead
  written_prefix : written <+: allWritten
  complete : failed = false → read = allRead ∧ written = allWritten
  full : failed = true →
    read.length = maxRegisters ∧ read ≠ allRead ∨
      written.length = maxRegisters ∧ written ≠ allWritten

section Operand

variable {inst : Instruction} {read written : List REG}
  (records : RecordsRegisters inst read written) (operand : PinOperand)
  (isReg : operand.isReg = true)
include records isReg

/-- The register of an operand is recorded, unless it is the seventeenth. -/
theorem storeRead_cases :
    (∃ inst', storeRead inst operand = some inst' ∧
      RecordsRegisters inst' (read ++ readRegs [operand]) written) ∨
    (storeRead inst operand = none ∧ read.length = maxRegisters ∧ readRegs [operand] ≠ []) := by
  by_cases room : read.length + (readRegs [operand]).length ≤ maxRegisters
  · exact .inl (storeRead_records records operand isReg room)
  · have atMost := records.read.length_le
    cases isRead : operand.read with
    | false =>
      have none : readRegs [operand] = [] := by simp [readRegs, isRead]
      rw [none] at room
      exact absurd atMost room
    | true =>
      have one : readRegs [operand] = [operand.reg] := by simp [readRegs, isReg, isRead]
      rw [one, List.length_singleton] at room
      have full : read.length = maxRegisters := by omega
      refine .inr ⟨?_, full, by rw [one]; exact List.cons_ne_nil _ _⟩
      rw [storeRead, if_pos isRead, records.read.storeReg_full full]
      rfl

theorem storeWritten_cases :
    (∃ inst', storeWritten inst operand = some inst' ∧
      RecordsRegisters inst' read (written ++ writtenRegs [operand])) ∨
    (storeWritten inst operand = none ∧ written.length = maxRegisters ∧
      writtenRegs [operand] ≠ []) := by
  by_cases room : written.length + (writtenRegs [operand]).length ≤ maxRegisters
  · exact .inl (storeWritten_records records operand isReg room)
  · have atMost := records.written.length_le
    cases isWritten : operand.written with
    | false =>
      have none : writtenRegs [operand] = [] := by simp [writtenRegs, isWritten]
      rw [none] at room
      exact absurd atMost room
    | true =>
      have one : writtenRegs [operand] = [operand.reg] := by simp [writtenRegs, isReg, isWritten]
      rw [one, List.length_singleton] at room
      have full : written.length = maxRegisters := by omega
      refine .inr ⟨?_, full, by rw [one]; exact List.cons_ne_nil _ _⟩
      rw [storeWritten, if_pos isWritten, records.written.storeReg_full full]
      rfl

end Operand

theorem ne_append_of_ne_nil {list more rest : List REG} (some : more ≠ []) :
    list ≠ list ++ more ++ rest := by
  rw [List.append_assoc]
  intro same
  have none := List.append_cancel_left ((List.append_nil list).trans same)
  exact some (List.append_eq_nil_iff.mp none.symm).1

/-- The loop over the operands records registers until one has no place. -/
theorem translateOperandLoop_records (operands : List PinOperand) {inst : Instruction}
    {read written : List REG} (records : RecordsRegisters inst read written) :
    ∃ read' written', LoopRecords (translateOperandLoop inst operands).1
      (translateOperandLoop inst operands).2 (read ++ readRegs operands)
      (written ++ writtenRegs operands) read' written' := by
  induction operands generalizing inst read written with
  | nil =>
    refine ⟨read, written, records, ?_, ?_, fun _ => ?_,
      fun error => absurd error Bool.false_ne_true⟩
    · exact List.prefix_append _ _
    · exact List.prefix_append _ _
    · exact ⟨(List.append_nil _).symm, (List.append_nil _).symm⟩
  | cons operand operands ih =>
    rw [translateOperandLoop, readRegs_cons, writtenRegs_cons, ← List.append_assoc,
      ← List.append_assoc]
    cases isReg : operand.isReg with
    | false =>
      have noRead : readRegs [operand] = [] := by simp [readRegs, isReg]
      have noWritten : writtenRegs [operand] = [] := by simp [writtenRegs, isReg]
      rw [noRead, noWritten, List.append_nil, List.append_nil]
      exact ih records
    | true =>
      rw [if_neg (by decide)]
      have prefixes : ∀ list more rest : List REG, list <+: list ++ more ++ rest := by
        intro list more rest
        rw [List.append_assoc]
        exact List.prefix_append _ _
      rcases storeRead_cases records operand isReg with
        ⟨inst', stored, records'⟩ | ⟨failed, full, some⟩
      · rw [stored]
        dsimp only
        rcases storeWritten_cases records' operand isReg with
          ⟨inst'', stored', records''⟩ | ⟨failed, full, some⟩
        · rw [stored']
          exact ih records''
        · rw [failed]
          exact ⟨_, _, records', List.prefix_append _ _, prefixes _ _ _,
            fun fine => absurd fine.symm Bool.false_ne_true,
            fun _ => .inr ⟨full, ne_append_of_ne_nil some⟩⟩
      · rw [failed]
        exact ⟨_, _, records, prefixes _ _ _, prefixes _ _ _,
          fun fine => absurd fine.symm Bool.false_ne_true,
          fun _ => .inl ⟨full, ne_append_of_ne_nil some⟩⟩

/-- The loop ends with an error exactly when there are too many registers of a kind. -/
theorem LoopRecords.failed_iff {failed : Bool} {inst : Instruction}
    {allRead allWritten read written : List REG}
    (recorded : LoopRecords failed inst allRead allWritten read written) :
    failed = true ↔ maxRegisters < allRead.length ∨ maxRegisters < allWritten.length := by
  have longer : ∀ {front list : List REG}, front <+: list → front.length = maxRegisters →
      front ≠ list → maxRegisters < list.length := by
    intro front list here full other
    refine Nat.lt_of_le_of_ne (full ▸ here.length_le) fun same => other ?_
    exact here.eq_of_length (full.trans same)
  constructor
  · intro error
    refine (recorded.full error).imp (fun ⟨full, other⟩ => ?_) fun ⟨full, other⟩ => ?_
    · exact longer recorded.read_prefix full other
    · exact longer recorded.written_prefix full other
  · intro tooMany
    by_contra fine
    obtain ⟨rfl, rfl⟩ := recorded.complete (Bool.eq_false_iff.mpr fine)
    have read := recorded.records.read.length_le
    have written := recorded.records.written.length_le
    omega

end Registers

/-- The characters of a mnemonic that a record has place for, before its terminator. -/
def keptMnemonic (mnemonic : CString) : CString :=
  (mnemonic.take (instMnemonicLen - 1)).takeWhile fun c => c ≠ 0

/-- The kind of branch that Pin's answers make. -/
def branchOf (ins : INS) : Branch :=
  if ins.isCall then .call
  else if ins.isSyscall then .syscall
  else if ins.isRet then .ret
  else if ins.isSysret then .sysret
  else if ins.isBranch then if ins.hasFallThrough then .cond else .uncond
  else .none

/-- What the dictionary of the reader says about an instruction with some registers. -/
structure DescribesIns (ins : INS) (read written : List REG) (info : StaticInstructionInfo) :
    Prop where
  instAddress : info.instAddress = ins.address
  instSize : info.instSize = ins.size
  instMnemonic : info.instMnemonic =
    String.ofList ((keptMnemonic ins.mnemonic).map fun c => Char.ofNat c.toNat)
  branchType : info.branchType = branchOf ins
  readRegs : RegistersIn info.readRegsArray info.numberOfReadRegs read
  writtenRegs : RegistersIn info.writtenRegsArray info.numberOfWriteRegs written
  isPredicatedInst : info.isPredicatedInst = ins.isPredicated
  isIndirectControlFlowInst : info.isIndirectControlFlowInst = ins.isIndirectControlFlow
  instCausesCacheLineFlush : info.instCausesCacheLineFlush = ins.isCacheLineFlush
  instPerformsAtomicUpdate : info.instPerformsAtomicUpdate = ins.isAtomicUpdate
  instReadsMemory : info.instReadsMemory = ins.isMemoryRead
  instWritesMemory : info.instWritesMemory = ins.isMemoryWrite
  isPrefetchHintInst : info.isPrefetchHintInst = false

/-- The octets of a mnemonic in a record, which ends in a terminator. -/
theorem toList_instructionMnemonic (ins : INS) :
    (translatePinFields ins).instructionMnemonic.toList =
      ins.mnemonic.take (instMnemonicLen - 1) ++
        0 :: List.replicate (instMnemonicLen - 1 - ins.mnemonic.length) 0 := by
  refine List.ext_getElem ?_ fun i inside _ => ?_
  · rw [Vector.length_toList, List.length_append, List.length_take, List.length_cons,
      List.length_replicate]
    unfold instMnemonicLen
    omega
  · rw [Vector.length_toList] at inside
    have octet : (translatePinFields ins).instructionMnemonic[i] =
        if i < instMnemonicLen - 1 then ins.mnemonic[i]?.getD 0 else 0 := Vector.getElem_ofFn _
    have zeros : (0 :: List.replicate (instMnemonicLen - 1 - ins.mnemonic.length) 0 : CString) =
        List.replicate (instMnemonicLen - 1 - ins.mnemonic.length + 1) 0 := rfl
    rw [Vector.getElem_toList, octet]
    by_cases kept : i < (ins.mnemonic.take (instMnemonicLen - 1)).length
    · rw [List.getElem_append_left kept, List.getElem_take]
      rw [List.length_take] at kept
      rw [if_pos (by omega), List.getElem?_eq_getElem (by omega), Option.getD_some]
    · rw [List.getElem_append_right (Nat.le_of_not_lt kept)]
      rw [List.length_take] at kept
      simp only [zeros, List.getElem_replicate]
      split
      · rw [List.getElem?_eq_none (by omega), Option.getD_none]
      · rfl

theorem mnemonicString_translatePinFields (ins : INS) :
    mnemonicString (translatePinFields ins).instructionMnemonic =
      String.ofList ((keptMnemonic ins.mnemonic).map fun c => Char.ofNat c.toNat) := by
  rw [mnemonicString, toList_instructionMnemonic, keptMnemonic, List.takeWhile_append]
  split
  · rename_i whole
    rw [List.takeWhile_cons_of_neg (by decide), List.append_nil,
      (List.takeWhile_prefix _).eq_of_length whole]
  · rfl

/-- The registers of a record in the dictionary. -/
theorem RegistersIn.copyRegs {array : Vector (BitVec 16) maxRegisters} {occupation : BitVec 8}
    {regs : List REG} (recorded : RegistersIn array occupation regs)
    (dest : Vector (BitVec 16) maxRegisters) :
    RegistersIn (Source.copyRegs occupation array dest) occupation regs where
  count := recorded.count
  elements j reg listed := by
    have below : j < occupation.toNat := by
      rw [recorded.count]
      exact (List.getElem?_eq_some_iff.mp listed).1
    obtain ⟨element, here, copied⟩ := copyRegs_same (by
      rw [recorded.count]
      exact recorded.length_le) array dest j below
    rw [copied, ← here, recorded.elements j reg listed]

theorem branchType_translatePinFields (ins : INS) :
    (translated (translatePinFields ins)).branchType = branchOf ins := by
  have set : ∀ flag : Bool, flagOctet flag ≠ 0 ↔ flag = true := by decide
  simp only [translated, translateRawInstructionToSinucaInst, translatePinFields, set]
  rfl

/-- Every instruction that Pin can show: the dictionary describes it with its registers, of
which at most sixteen of a kind are kept; an error is reported exactly when there are more,
and then the list of one kind is full. -/
theorem recorded_instruction_described (ins : INS) :
    ∃ read written,
      DescribesIns ins read written (translated (translatePinInst ins).2) ∧
      read <+: readRegs ins.operands ∧ written <+: writtenRegs ins.operands ∧
      ((translatePinInst ins).1 = true ↔ maxRegisters < (readRegs ins.operands).length ∨
        maxRegisters < (writtenRegs ins.operands).length) ∧
      ((translatePinInst ins).1 = false →
        read = readRegs ins.operands ∧ written = writtenRegs ins.operands) ∧
      ((translatePinInst ins).1 = true →
        read.length = maxRegisters ∨ written.length = maxRegisters) := by
  have empty : RecordsRegisters (translatePinFields ins) [] [] :=
    ⟨RegistersIn.nil _, RegistersIn.nil _⟩
  obtain ⟨read, written, recorded⟩ := translateOperandLoop_records ins.operands empty
  rw [List.nil_append, List.nil_append] at recorded
  obtain ⟨r, w, m, n, same⟩ := translatePinInst_same ins
  refine ⟨read, written, ?_, recorded.read_prefix, recorded.written_prefix, recorded.failed_iff,
    recorded.complete, fun error => (recorded.full error).imp And.left And.left⟩
  have registers : RecordsRegisters (translatePinInst ins).2 read written := recorded.records
  rw [same] at registers ⊢
  exact {
    instAddress := rfl
    instSize := rfl
    instMnemonic := mnemonicString_translatePinFields ins
    branchType := branchType_translatePinFields ins
    readRegs := registers.read.copyRegs _
    writtenRegs := registers.written.copyRegs _
    isPredicatedInst := flagOctet_ne_zero _
    isIndirectControlFlowInst := flagOctet_ne_zero _
    instCausesCacheLineFlush := flagOctet_ne_zero _
    instPerformsAtomicUpdate := flagOctet_ne_zero _
    instReadsMemory := flagOctet_ne_zero _
    instWritesMemory := flagOctet_ne_zero _
    isPrefetchHintInst := rfl }

end Sinuca3.Guarantees
