import Sinuca3.Lib.Fields
import Sinuca3.Source.TraceGenerator.Intrinsics

/-!
# Records of intrinsics and instructions

`IntrinsicToSinucaInst` and the loop over the operands in `TranslatePinInst`, of
`x86_trace_generator/sinuca3_pintool.cpp`. The first copies octets between arrays whose
elements are of different widths, so it works on the octets of the record.
-/
namespace Sinuca3.Source
open Lib

/-- Where the arrays of registers start in an `Instruction`, and where the second ends. -/
def readRegsPlace : Nat := 16
def writtenRegsPlace : Nat := 48
def occupationPlace : Nat := 80

/-- The octets of the first registers. -/
def registerOctets (regs : Vector REG maxRegisters) (count : BitVec 8) : List Byte :=
  Block.read ((Codec.u32.vector maxRegisters).encode regs) 0 (count.toNat * Codec.u32.width)

structure EncodedIntrinsic where
  /-- The return value. -/
  code : Nat
  inst : Instruction
  /-- Place and size of the copies of registers. -/
  copies : List (Nat × Nat) := []

/-- `strncpy` of the name, on octets that are zero. -/
def intrinsicMnemonic (info : IntrinsicInfo) : Vector (BitVec 8) instMnemonicLen :=
  let name := stringAt info.name.toList 0
  Vector.ofFn fun i => if i.val < instMnemonicLen - 1 then name[i.val]?.getD 0 else 0

/-- `IntrinsicToSinucaInst`, for a call at an address and of a size. -/
def intrinsicToSinucaInst (address size : BitVec 64) (info : IntrinsicInfo) : EncodedIntrinsic :=
  let inst : Instruction := {
    instructionMnemonic := intrinsicMnemonic info
    instructionAddress := address
    instructionSize := size
    rRegsArrayOccupation := info.numReadRegs
    wRegsArrayOccupation := info.numWriteRegs }
  if maxRegisters < info.numReadRegs.toNat then { code := 1, inst }
  else
    let read := registerOctets info.read info.numReadRegs
    let inst := Instruction.codec.copied inst readRegsPlace read
    let copies := [(readRegsPlace, read.length)]
    if maxRegisters < info.numWriteRegs.toNat then { code := 1, inst, copies }
    else
      let write := registerOctets info.write info.numWriteRegs
      { code := 0
        inst := Instruction.codec.copied inst writtenRegsPlace write
        copies := copies ++ [(writtenRegsPlace, write.length)] }

/-- What the loop asks about an operand of an instruction. -/
structure PinOperand where
  isReg : Bool
  reg : REG
  read : Bool
  written : Bool

/-- A register at the next place of an array, if there is one. -/
def storeReg (array : Vector (BitVec 16) maxRegisters) (occupation : BitVec 8) (reg : REG) :
    Option (Vector (BitVec 16) maxRegisters) :=
  if inside : occupation.toNat < maxRegisters then
    some (array.set occupation.toNat (reg.setWidth 16))
  else none

/-- The register of an operand that is read. -/
def storeRead (inst : Instruction) (operand : PinOperand) : Option Instruction :=
  if operand.read then
    (storeReg inst.readRegsArray inst.rRegsArrayOccupation operand.reg).map fun readRegsArray =>
      { inst with
        readRegsArray
        rRegsArrayOccupation := inst.rRegsArrayOccupation + 1 }
  else some inst

/-- The register of an operand that is written. -/
def storeWritten (inst : Instruction) (operand : PinOperand) : Option Instruction :=
  if operand.written then
    (storeReg inst.writtenRegsArray inst.wRegsArrayOccupation operand.reg).map
      fun writtenRegsArray =>
        { inst with
          writtenRegsArray
          wRegsArrayOccupation := inst.wRegsArrayOccupation + 1 }
  else some inst

/-- A turn of the loop; nothing is returned for the error. -/
def translateOperand (inst : Instruction) (operand : PinOperand) : Option Instruction :=
  if !operand.isReg then some inst
  else (storeRead inst operand).bind fun inst => storeWritten inst operand

/-- The loop of `TranslatePinInst`. -/
def translateOperands (inst : Instruction) (operands : List PinOperand) : Option Instruction :=
  operands.foldlM translateOperand inst

/-! Where the fields are that the copies can reach. -/

theorem readRegsArray_field :
    FieldAt Instruction.codec (Codec.u16.vector maxRegisters) readRegsPlace
      Instruction.readRegsArray where
  inside := by decide
  decodes octets := by
    have behind : (octets.drop 8).drop 8 = octets.drop readRegsPlace := List.drop_drop
    rw [Block.read, ← behind]
    rfl

theorem writtenRegsArray_field :
    FieldAt Instruction.codec (Codec.u16.vector maxRegisters) writtenRegsPlace
      Instruction.writtenRegsArray where
  inside := by decide
  decodes octets := by
    have behind : ((octets.drop 8).drop 8).drop 32 = octets.drop writtenRegsPlace := by
      rw [List.drop_drop, List.drop_drop]
      rfl
    rw [Block.read, ← behind]
    rfl

theorem wRegsArrayOccupation_field :
    FieldAt Instruction.codec Codec.u8 occupationPlace Instruction.wRegsArrayOccupation where
  inside := by decide
  decodes octets := by
    have behind : (((octets.drop 8).drop 8).drop 32).drop 32 = octets.drop occupationPlace := by
      rw [List.drop_drop, List.drop_drop, List.drop_drop]
      rfl
    rw [Block.read, ← behind]
    rfl

theorem rRegsArrayOccupation_field :
    FieldAt Instruction.codec Codec.u8 (occupationPlace + 1)
      Instruction.rRegsArrayOccupation where
  inside := by decide
  decodes octets := by
    have behind : ((((octets.drop 8).drop 8).drop 32).drop 32).drop 1 =
        octets.drop (occupationPlace + 1) := by
      rw [List.drop_drop, List.drop_drop, List.drop_drop, List.drop_drop]
      rfl
    rw [Block.read, ← behind]
    rfl

/-- The registers that count. -/
def listed (regs : Vector REG maxRegisters) (count : BitVec 8) : List REG :=
  regs.toList.take count.toNat

theorem registerOctets_eq (regs : Vector REG maxRegisters) (count : BitVec 8) :
    registerOctets regs count = (listed regs count).flatMap Codec.u32.encode :=
  Codec.u32.take_flatMap_encode regs.toList count.toNat

/-- Two octets of a register as an element; the lower two come first. -/
theorem register_half (regs : List REG) (fits : ∀ reg ∈ regs, reg.toNat < 2 ^ 16) {j : Nat}
    (inside : j / 2 < regs.length) :
    Codec.u16.decode (Block.read (regs.flatMap Codec.u32.encode) (j * 2) 2) =
      if j % 2 = 0 then regs[j / 2].setWidth 16 else 0 := by
  have small := fits _ (List.getElem_mem inside)
  have cell := Codec.u32.chunk_flatMap_encode regs (j / 2) inside []
  rw [List.append_nil] at cell
  have part := Block.read_read (regs.flatMap Codec.u32.encode) (j / 2 * 4) 4 (j % 2 * 2) 2
    (by omega)
  have place : j / 2 * 4 + j % 2 * 2 = j * 2 := by omega
  rw [place] at part
  rw [← part]
  have octets : Block.read (regs.flatMap Codec.u32.encode) (j / 2 * 4) 4 =
      Codec.digits 4 regs[j / 2].toNat := cell
  rw [octets]
  generalize regs[j / 2] = reg at small
  rcases Nat.mod_two_eq_zero_or_one j with even | odd
  · have low : Block.read (Codec.digits 4 reg.toNat) (0 * 2) 2 = Codec.digits 2 reg.toNat := rfl
    rw [even, if_pos rfl, low]
    exact (congrArg (BitVec.ofNat 16) (Codec.value_digits 2 _ small)).trans
      (BitVec.ofNat_toNat 16 reg)
  · have high : Block.read (Codec.digits 4 reg.toNat) (1 * 2) 2 =
        Codec.digits 2 (reg.toNat / 256 / 256) := rfl
    have none : reg.toNat / 256 / 256 = 0 := by omega
    rw [odd, if_neg Nat.one_ne_zero, high, none]
    rfl

/-- An element behind the copy of some registers into an array. -/
theorem array_copied {array : Instruction → Vector (BitVec 16) maxRegisters} {place : Nat}
    (field : FieldAt Instruction.codec (Codec.u16.vector maxRegisters) place array)
    (inst : Instruction) (regs : List REG) (fits : ∀ reg ∈ regs, reg.toNat < 2 ^ 16)
    (room : place + (regs.flatMap Codec.u32.encode).length ≤ Instruction.codec.width) {j : Nat}
    (below : j < regs.length) (inside : j < maxRegisters) :
    (array (Instruction.codec.copied inst place (regs.flatMap Codec.u32.encode)))[j] =
      if j % 2 = 0 then regs[j / 2].setWidth 16 else 0 := by
  have length : (regs.flatMap Codec.u32.encode).length = regs.length * 4 :=
    Codec.u32.length_flatMap_encode regs
  have width : Codec.u16.width = 2 := rfl
  have copied := (field.element j inside).copied_inside inst room
    (Nat.le_add_right _ _) (by rw [length, width]; omega)
  rw [Nat.add_sub_cancel_left] at copied
  exact copied.trans (register_half regs fits (by omega))

end Sinuca3.Source
