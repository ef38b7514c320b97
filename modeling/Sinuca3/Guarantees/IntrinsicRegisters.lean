import Sinuca3.Source.TraceGenerator.IntrinsicEncoding

/-!
# The registers of an intrinsic in its record

An element of a record's arrays has half the octets of a Pin register. Copied as octets, a
register takes two elements, of which the second is zero; a list survives only when nothing
but zeros follows its first register.
-/
namespace Sinuca3.Guarantees
open Lib Source

/-- Some registers in an array of a record. -/
structure RegistersIn (array : Vector (BitVec 16) maxRegisters) (occupation : BitVec 8)
    (regs : List REG) : Prop where
  count : occupation.toNat = regs.length
  elements : ∀ (j : Nat) (reg : REG), regs[j]? = some reg → array[j]? = some (reg.setWidth 16)

theorem RegistersIn.nil (array : Vector (BitVec 16) maxRegisters) : RegistersIn array 0 [] where
  count := rfl
  elements j reg listed := by
    rw [List.getElem?_nil] at listed
    cases listed

/-- One more register behind those recorded. -/
theorem RegistersIn.storeReg {array : Vector (BitVec 16) maxRegisters} {occupation : BitVec 8}
    {regs : List REG} (recorded : RegistersIn array occupation regs) (reg : REG)
    (room : regs.length < maxRegisters) :
    ∃ array', Source.storeReg array occupation reg = some array' ∧
      RegistersIn array' (occupation + 1) (regs ++ [reg]) := by
  have count := recorded.count
  have inside : occupation.toNat < maxRegisters := by rwa [count]
  unfold maxRegisters at room
  refine ⟨_, dif_pos inside, ?_, fun j other listed => ?_⟩
  · have one : (1 : BitVec 8).toNat = 1 := rfl
    rw [BitVec.toNat_add, one, count, List.length_append, List.length_singleton]
    exact Nat.mod_eq_of_lt (by omega)
  · rw [Vector.getElem?_set]
    rcases Nat.lt_trichotomy j regs.length with earlier | last | behind
    · rw [List.getElem?_append_left earlier] at listed
      rw [if_neg (by omega)]
      exact recorded.elements j other listed
    · rw [last, List.getElem?_concat_length] at listed
      cases listed
      rw [if_pos (by omega)]
    · rw [List.getElem?_eq_none (by rw [List.length_append, List.length_singleton]; omega)]
        at listed
      cases listed

/-- What a record holds of the registers of an instruction. -/
structure RecordsRegisters (inst : Instruction) (read written : List REG) : Prop where
  read : RegistersIn inst.readRegsArray inst.rRegsArrayOccupation read
  written : RegistersIn inst.writtenRegsArray inst.wRegsArrayOccupation written

/-- The registers among some operands that are read, and those that are written. -/
def readRegs (operands : List PinOperand) : List REG :=
  (operands.filter fun o => o.isReg && o.read).map PinOperand.reg

def writtenRegs (operands : List PinOperand) : List REG :=
  (operands.filter fun o => o.isReg && o.written).map PinOperand.reg

section Operands

variable {inst : Instruction} {read written : List REG}
  (records : RecordsRegisters inst read written) (operand : PinOperand)
include records

theorem storeRead_records (isReg : operand.isReg = true)
    (room : read.length + (readRegs [operand]).length ≤ maxRegisters) :
    ∃ inst', storeRead inst operand = some inst' ∧
      RecordsRegisters inst' (read ++ readRegs [operand]) written := by
  unfold storeRead readRegs at *
  cases isRead : operand.read with
  | false =>
    rw [List.filter_cons_of_neg (by rw [isReg, isRead]; decide), List.filter_nil, List.map_nil,
      List.append_nil]
    exact ⟨inst, rfl, records⟩
  | true =>
    rw [List.filter_cons_of_pos (by rw [isReg, isRead]; decide), List.filter_nil] at room ⊢
    obtain ⟨array, stored, recorded⟩ := records.read.storeReg operand.reg room
    rw [if_pos rfl, stored]
    exact ⟨_, rfl, recorded, records.written⟩

theorem storeWritten_records (isReg : operand.isReg = true)
    (room : written.length + (writtenRegs [operand]).length ≤ maxRegisters) :
    ∃ inst', storeWritten inst operand = some inst' ∧
      RecordsRegisters inst' read (written ++ writtenRegs [operand]) := by
  unfold storeWritten writtenRegs at *
  cases isWritten : operand.written with
  | false =>
    rw [List.filter_cons_of_neg (by rw [isReg, isWritten]; decide), List.filter_nil,
      List.map_nil, List.append_nil]
    exact ⟨inst, rfl, records⟩
  | true =>
    rw [List.filter_cons_of_pos (by rw [isReg, isWritten]; decide), List.filter_nil] at room ⊢
    obtain ⟨array, stored, recorded⟩ := records.written.storeReg operand.reg room
    rw [if_pos rfl, stored]
    exact ⟨_, rfl, records.read, recorded⟩

/-- A turn of the loop over the operands. -/
theorem translateOperand_records
    (roomRead : read.length + (readRegs [operand]).length ≤ maxRegisters)
    (roomWritten : written.length + (writtenRegs [operand]).length ≤ maxRegisters) :
    ∃ inst', translateOperand inst operand = some inst' ∧
      RecordsRegisters inst' (read ++ readRegs [operand]) (written ++ writtenRegs [operand]) := by
  unfold translateOperand
  cases isReg : operand.isReg with
  | false =>
    have noRead : readRegs [operand] = [] := by
      rw [readRegs, List.filter_cons_of_neg (by simp [isReg]), List.filter_nil,
        List.map_nil]
    have noWritten : writtenRegs [operand] = [] := by
      rw [writtenRegs, List.filter_cons_of_neg (by simp [isReg]), List.filter_nil,
        List.map_nil]
    rw [noRead, noWritten, List.append_nil, List.append_nil]
    exact ⟨inst, rfl, records⟩
  | true =>
    obtain ⟨inst', stored, records'⟩ := storeRead_records records operand isReg roomRead
    obtain ⟨inst'', stored', records''⟩ := storeWritten_records records' operand isReg roomWritten
    refine ⟨inst'', ?_, records''⟩
    rw [stored]
    exact stored'

end Operands

/-- The loop over the operands records every register it meets. -/
theorem translateOperands_records (operands : List PinOperand) {inst : Instruction}
    {read written : List REG} (records : RecordsRegisters inst read written)
    (roomRead : read.length + (readRegs operands).length ≤ maxRegisters)
    (roomWritten : written.length + (writtenRegs operands).length ≤ maxRegisters) :
    ∃ inst', translateOperands inst operands = some inst' ∧
      RecordsRegisters inst' (read ++ readRegs operands) (written ++ writtenRegs operands) := by
  induction operands generalizing inst read written with
  | nil =>
    rw [show readRegs [] = [] from rfl, show writtenRegs [] = [] from rfl, List.append_nil,
      List.append_nil]
    exact ⟨inst, rfl, records⟩
  | cons operand operands ih =>
    have splitRead : readRegs (operand :: operands) = readRegs [operand] ++ readRegs operands := by
      rw [readRegs, ← List.singleton_append, List.filter_append, List.map_append]
      rfl
    have splitWritten :
        writtenRegs (operand :: operands) = writtenRegs [operand] ++ writtenRegs operands := by
      rw [writtenRegs, ← List.singleton_append, List.filter_append, List.map_append]
      rfl
    rw [splitRead, List.length_append] at roomRead
    rw [splitWritten, List.length_append] at roomWritten
    obtain ⟨inst', turn, records'⟩ := translateOperand_records records operand (by omega)
      (by omega)
    obtain ⟨inst'', rest, records''⟩ := ih records' (by rw [List.length_append]; omega)
      (by rw [List.length_append]; omega)
    refine ⟨inst'', ?_, ?_⟩
    · rw [translateOperands, List.foldlM_cons, turn]
      exact rest
    · rwa [splitRead, splitWritten, ← List.append_assoc, ← List.append_assoc]

theorem zeros_follow_iff (regs : List REG) :
    (∀ reg ∈ regs.tail, reg = 0) ↔ ∀ (j : Nat) (below : j < regs.length), 0 < j → regs[j] = 0 := by
  constructor
  · intro zeros j below behind
    obtain ⟨i, rfl⟩ := Nat.exists_eq_succ_of_ne_zero (Nat.ne_of_gt behind)
    have inside : i < regs.tail.length := by
      rw [List.length_tail]
      omega
    rw [← zeros _ (List.getElem_mem inside), List.getElem_tail]
  · intro zeros reg member
    obtain ⟨i, below, rfl⟩ := List.getElem_of_mem member
    rw [List.length_tail] at below
    rw [List.getElem_tail]
    exact zeros (i + 1) (by omega) (Nat.succ_pos i)

/-- Registers whose elements are the halves of the copied octets survive when only zeros
follow the first. -/
theorem recorded_iff {array : Vector (BitVec 16) maxRegisters} {occupation : BitVec 8}
    {regs : List REG} (count : occupation.toNat = regs.length) (few : regs.length ≤ maxRegisters)
    (fits : ∀ reg ∈ regs, reg.toNat < 2 ^ 16)
    (halves : ∀ (j : Nat) (below : j < regs.length) (inside : j < maxRegisters),
      array[j] =
        if j % 2 = 0 then
          (getElem regs (j / 2) (Nat.lt_of_le_of_lt (Nat.div_le_self j 2) below)).setWidth 16
        else 0) :
    RegistersIn array occupation regs ↔ ∀ reg ∈ regs.tail, reg = 0 := by
  rw [zeros_follow_iff]
  constructor
  · intro recorded j
    -- an element is a half of an earlier register, or zero
    induction j using Nat.strong_induction_on with
    | _ j ih =>
      intro below behind
      have inside : j < maxRegisters := Nat.lt_of_lt_of_le below few
      have element := recorded.elements j _ (List.getElem?_eq_getElem below)
      rw [Vector.getElem?_eq_getElem inside, halves j below inside] at element
      have small := fits _ (List.getElem_mem below)
      have narrow : regs[j].setWidth 16 = 0 := by
        rw [← Option.some.inj element]
        split
        · rw [ih (j / 2) (by omega) (by omega) (by omega)]
          rfl
        · rfl
      have none : regs[j].toNat % 2 ^ 16 = 0 := by
        rw [← BitVec.toNat_setWidth, narrow]
        rfl
      rw [Nat.mod_eq_of_lt small] at none
      exact BitVec.eq_of_toNat_eq none
  · intro zero
    refine ⟨count, fun j reg listed => ?_⟩
    obtain ⟨below, rfl⟩ := List.getElem?_eq_some_iff.mp listed
    have inside : j < maxRegisters := Nat.lt_of_lt_of_le below few
    rw [Vector.getElem?_eq_getElem inside, halves j below inside]
    rcases Nat.eq_zero_or_pos j with rfl | behind
    · rfl
    · rw [zero j below behind]
      split
      · rw [zero (j / 2) (by omega) (by omega)]
      · rfl

/-- The encoding of an intrinsic with some registers, and where they were copied to. -/
structure SurvivesEncoding (r : EncodedIntrinsic) (read written : List REG) : Prop where
  returned : r.code = 0
  inside : ∀ copy ∈ r.copies, readRegsPlace ≤ copy.1 ∧ copy.1 + copy.2 ≤ occupationPlace
  records : RecordsRegisters r.inst read written

/-- The elements of the first array lie before the second. -/
theorem element_before (j : Nat) (inside : j < maxRegisters) : 16 + j * 2 + 2 ≤ 48 := by
  unfold maxRegisters at inside
  omega

/-- What the copies leave in a record when they stay inside the arrays. -/
theorem copied_records_iff (inst : Instruction) {read write : List REG}
    (countRead : inst.rRegsArrayOccupation.toNat = read.length)
    (countWritten : inst.wRegsArrayOccupation.toNat = write.length)
    (fewRead : read.length ≤ maxRegisters) (half : write.length ≤ 8)
    (fitsRead : ∀ reg ∈ read, reg.toNat < 2 ^ 16)
    (fitsWritten : ∀ reg ∈ write, reg.toNat < 2 ^ 16) :
    RecordsRegisters
        (Instruction.codec.copied
          (Instruction.codec.copied inst readRegsPlace (read.flatMap Codec.u32.encode))
          writtenRegsPlace (write.flatMap Codec.u32.encode)) read write ↔
      (∀ reg ∈ read.tail, reg = 0) ∧ ∀ reg ∈ write.tail, reg = 0 := by
  have octetsRead : (read.flatMap Codec.u32.encode).length = read.length * 4 :=
    Codec.u32.length_flatMap_encode read
  have octetsWritten : (write.flatMap Codec.u32.encode).length = write.length * 4 :=
    Codec.u32.length_flatMap_encode write
  have sixteen : read.length ≤ 16 := fewRead
  have endRead : readRegsPlace + (read.flatMap Codec.u32.encode).length ≤ occupationPlace := by
    unfold readRegsPlace occupationPlace
    omega
  have endWritten :
      writtenRegsPlace + (write.flatMap Codec.u32.encode).length ≤ occupationPlace := by
    unfold writtenRegsPlace occupationPlace
    omega
  have whole : occupationPlace ≤ Instruction.codec.width := by decide
  have roomRead := endRead.trans whole
  have roomWritten := endWritten.trans whole
  generalize first : Instruction.codec.copied inst readRegsPlace
    (read.flatMap Codec.u32.encode) = inst'
  generalize second : Instruction.codec.copied inst' writtenRegsPlace
    (write.flatMap Codec.u32.encode) = inst''
  -- the fields behind the arrays are not touched
  have occupationRead : inst''.rRegsArrayOccupation.toNat = read.length := by
    rw [← second, rRegsArrayOccupation_field.copied_outside inst' roomWritten
      (.inr (Nat.le_succ_of_le endWritten)), ← first,
      rRegsArrayOccupation_field.copied_outside inst roomRead (.inr (Nat.le_succ_of_le endRead)),
      countRead]
  have occupationWritten : inst''.wRegsArrayOccupation.toNat = write.length := by
    rw [← second, wRegsArrayOccupation_field.copied_outside inst' roomWritten (.inr endWritten),
      ← first, wRegsArrayOccupation_field.copied_outside inst roomRead (.inr endRead),
      countWritten]
  have reads : RegistersIn inst''.readRegsArray inst''.rRegsArrayOccupation read ↔
      ∀ reg ∈ read.tail, reg = 0 := by
    refine recorded_iff occupationRead fewRead fitsRead fun j below inside => ?_
    rw [← second, (readRegsArray_field.element j inside).copied_outside inst' roomWritten
      (.inl (element_before j inside)), ← first]
    exact array_copied readRegsArray_field inst read fitsRead roomRead below inside
  have writes : RegistersIn inst''.writtenRegsArray inst''.wRegsArrayOccupation write ↔
      ∀ reg ∈ write.tail, reg = 0 := by
    refine recorded_iff occupationWritten (Nat.le_trans half (by decide)) fitsWritten
      fun j below inside => ?_
    rw [← second]
    exact array_copied writtenRegsArray_field inst' write fitsWritten roomWritten below inside
  rw [← reads, ← writes]
  exact ⟨fun records => ⟨records.read, records.written⟩, fun ⟨reads, writes⟩ => ⟨reads, writes⟩⟩

/-- The record of an intrinsic before the copies. -/
def intrinsicHead (address size : BitVec 64) (info : IntrinsicInfo) : Instruction where
  instructionMnemonic := intrinsicMnemonic info
  instructionAddress := address
  instructionSize := size
  rRegsArrayOccupation := info.numReadRegs
  wRegsArrayOccupation := info.numWriteRegs

theorem length_listed (regs : Vector REG maxRegisters) {count : BitVec 8}
    (few : count.toNat ≤ maxRegisters) : (listed regs count).length = count.toNat := by
  rw [listed, List.length_take, Vector.length_toList, Nat.min_eq_left few]

section Encoding

variable (address size : BitVec 64) {info : IntrinsicInfo}
  (fewRead : info.numReadRegs.toNat ≤ maxRegisters)
  (fewWritten : info.numWriteRegs.toNat ≤ maxRegisters)
include fewRead fewWritten

theorem intrinsicToSinucaInst_eq :
    intrinsicToSinucaInst address size info =
      let read := (listed info.read info.numReadRegs).flatMap Codec.u32.encode
      let write := (listed info.write info.numWriteRegs).flatMap Codec.u32.encode
      { code := 0
        inst := Instruction.codec.copied
          (Instruction.codec.copied (intrinsicHead address size info) readRegsPlace read)
          writtenRegsPlace write
        copies := [(readRegsPlace, info.numReadRegs.toNat * 4),
          (writtenRegsPlace, info.numWriteRegs.toNat * 4)] } := by
  unfold intrinsicToSinucaInst
  dsimp only
  rw [if_neg (Nat.not_lt.mpr fewRead), if_neg (Nat.not_lt.mpr fewWritten), registerOctets_eq,
    registerOctets_eq, Codec.length_flatMap_encode, Codec.length_flatMap_encode,
    length_listed _ fewRead, length_listed _ fewWritten]
  rfl

end Encoding

/-- Every intrinsic with at most sixteen registers of each kind: its registers survive, and
nothing is written outside the arrays, when at most eight are written and only zeros follow
the first of each list. The loop over the operands of an instruction keeps them all. -/
theorem intrinsic_registers_survive (address size : BitVec 64) (info : IntrinsicInfo)
    (fewRead : info.numReadRegs.toNat ≤ maxRegisters)
    (fewWritten : info.numWriteRegs.toNat ≤ maxRegisters)
    (fitsRead : ∀ reg ∈ listed info.read info.numReadRegs, reg.toNat < 2 ^ 16)
    (fitsWritten : ∀ reg ∈ listed info.write info.numWriteRegs, reg.toNat < 2 ^ 16) :
    (SurvivesEncoding (intrinsicToSinucaInst address size info)
        (listed info.read info.numReadRegs) (listed info.write info.numWriteRegs) ↔
      info.numWriteRegs.toNat ≤ 8 ∧
        (∀ reg ∈ (listed info.read info.numReadRegs).tail, reg = 0) ∧
          ∀ reg ∈ (listed info.write info.numWriteRegs).tail, reg = 0) ∧
    ∀ operands, readRegs operands = listed info.read info.numReadRegs →
      writtenRegs operands = listed info.write info.numWriteRegs →
      ∃ inst, translateOperands {} operands = some inst ∧
        RecordsRegisters inst (listed info.read info.numReadRegs)
          (listed info.write info.numWriteRegs) := by
  have encoded := intrinsicToSinucaInst_eq address size fewRead fewWritten
  have arrays (half : info.numWriteRegs.toNat ≤ 8) :=
    copied_records_iff (intrinsicHead address size info) (length_listed info.read fewRead).symm
      (length_listed info.write fewWritten).symm
      ((length_listed info.read fewRead).le.trans fewRead)
      ((length_listed info.write fewWritten).le.trans half) fitsRead fitsWritten
  refine ⟨⟨fun survives => ?_, fun ⟨half, zeros⟩ => ?_⟩, fun operands read written => ?_⟩
  · have inside := survives.inside
    rw [encoded] at inside
    have half : info.numWriteRegs.toNat ≤ 8 := by
      have upper := (inside _ (List.mem_cons_of_mem _ List.mem_cons_self)).2
      unfold writtenRegsPlace occupationPlace at upper
      omega
    have records := survives.records
    rw [encoded] at records
    exact ⟨half, (arrays half).mp records⟩
  · refine ⟨by rw [encoded], fun copy member => ?_, ?_⟩
    rotate_left
    · rw [encoded]
      exact (arrays half).mpr zeros
    rw [encoded] at member
    unfold maxRegisters at fewRead
    rcases List.mem_cons.mp member with rfl | member
    · unfold readRegsPlace occupationPlace
      omega
    · rw [List.mem_singleton.mp member]
      unfold readRegsPlace writtenRegsPlace occupationPlace
      omega
  · have start : RecordsRegisters {} [] [] := ⟨.nil _, .nil _⟩
    have records := translateOperands_records operands start
      (by rw [read, length_listed _ fewRead]; exact (Nat.zero_add _).le.trans fewRead)
      (by rw [written, length_listed _ fewWritten]; exact (Nat.zero_add _).le.trans fewWritten)
    rwa [read, written] at records

/-- One register read and one written. -/
def unaryIntrinsic : IntrinsicInfo where
  read := (Vector.replicate maxRegisters 0).set 0 3
  write := (Vector.replicate maxRegisters 0).set 0 4
  numReadRegs := 1
  numWriteRegs := 1

theorem intrinsic_registers_survive_unary :
    SurvivesEncoding (intrinsicToSinucaInst 4096 5 unaryIntrinsic)
      (listed unaryIntrinsic.read unaryIntrinsic.numReadRegs)
      (listed unaryIntrinsic.write unaryIntrinsic.numWriteRegs) := by
  have read : listed unaryIntrinsic.read unaryIntrinsic.numReadRegs = [3] := by decide
  have written : listed unaryIntrinsic.write unaryIntrinsic.numWriteRegs = [4] := by decide
  refine (intrinsic_registers_survive 4096 5 unaryIntrinsic (by decide) (by decide) ?_ ?_).1.mpr
    ⟨by decide, ?_, ?_⟩
  · simp [read]
  · simp [written]
  · simp [read]
  · simp [written]

/-- Two registers read. -/
def binaryIntrinsic : IntrinsicInfo where
  read := ((Vector.replicate maxRegisters 0).set 0 3).set 1 4
  numReadRegs := 2

/-- The second register reads as zero. -/
theorem second_register_lost :
    listed binaryIntrinsic.read 2 = [3, 4] ∧
      (intrinsicToSinucaInst 4096 5 binaryIntrinsic).inst.rRegsArrayOccupation = 2 ∧
      (intrinsicToSinucaInst 4096 5 binaryIntrinsic).inst.readRegsArray[1]? = some 0 ∧
      ¬ SurvivesEncoding (intrinsicToSinucaInst 4096 5 binaryIntrinsic) [3, 4] [] := by
  have second : (intrinsicToSinucaInst 4096 5 binaryIntrinsic).inst.readRegsArray[1]? =
      some 0 := by decide +kernel
  refine ⟨by decide, by decide +kernel, second, fun survives => ?_⟩
  have kept := survives.records.read.elements 1 4 rfl
  rw [second] at kept
  cases kept

end Sinuca3.Guarantees
