import Mathlib.Data.Nat.Notation
import Sinuca3.Source.Engine.Linkable

/-!
# Packets

`engine/default_packets.hpp`. A pointer to the static information of an
instruction is the information itself: the instruction pool never changes once
the trace is open.
-/
namespace Sinuca3.Source

def maxRegisters : Nat := 16
def maxMemOperations : Nat := 16

inductive Branch where
  | none | syscall | call | sysret | ret | uncond | cond
  deriving DecidableEq, Repr

/-- The constructor clears every field. -/
structure StaticInstructionInfo where
  instAddress : BitVec 64 := 0
  instSize : BitVec 64 := 0
  branchType : Branch := .none
  readRegsArray : Vector (BitVec 16) maxRegisters := Vector.replicate maxRegisters 0
  writtenRegsArray : Vector (BitVec 16) maxRegisters := Vector.replicate maxRegisters 0
  numberOfReadRegs : BitVec 8 := 0
  numberOfWriteRegs : BitVec 8 := 0
  isPrefetchHintInst : Bool := false
  isPredicatedInst : Bool := false
  isIndirectControlFlowInst : Bool := false
  instCausesCacheLineFlush : Bool := false
  instPerformsAtomicUpdate : Bool := false
  instReadsMemory : Bool := false
  instWritesMemory : Bool := false
  instMnemonic : String := "N/A"
  deriving DecidableEq

instance : Inhabited StaticInstructionInfo := ⟨{}⟩

structure DynamicInstructionInfo where
  readsAddr : Vector (BitVec 64) maxMemOperations := Vector.replicate maxMemOperations 0
  writesAddr : Vector (BitVec 64) maxMemOperations := Vector.replicate maxMemOperations 0
  readsSize : Vector (BitVec 32) maxMemOperations := Vector.replicate maxMemOperations 0
  writesSize : Vector (BitVec 32) maxMemOperations := Vector.replicate maxMemOperations 0
  numReadings : Nat := 0
  numWritings : Nat := 0
  deriving DecidableEq

instance : Inhabited DynamicInstructionInfo := ⟨{}⟩

structure InstructionPacket where
  staticInfo : StaticInstructionInfo := {}
  dynamicInfo : DynamicInstructionInfo := {}
  /-- The engine fills this as it buffers the next instruction. -/
  nextInstruction : BitVec 64 := 0
  deriving DecidableEq

instance : Inhabited InstructionPacket := ⟨{}⟩

/-- The executed instruction a packet stands for, without the engine's field. -/
def InstructionPacket.instruction (p : InstructionPacket) :
    StaticInstructionInfo × DynamicInstructionInfo := (p.staticInfo, p.dynamicInfo)

inductive PredictorPacketType where
  | requestQuery | requestTargetUpdate | requestDirectionUpdate
  | responseUnknown | responseTake | responseTakeToAddress | responseDontTake
  deriving DecidableEq, Repr

/-- Every member of the union starts with the instruction; `target` and `taken`
are what follows it in the members that have them. -/
structure PredictorPacket where
  type : PredictorPacketType := .requestQuery
  instruction : InstructionPacket := {}
  target : BitVec 64 := 0
  taken : Bool := false
  deriving DecidableEq

instance : Inhabited PredictorPacket := ⟨{}⟩

/-! Connections by the type of component they lead to. A `FetchPacket` is a request
on the way to the engine and a response on the way back. -/

abbrev FetchConnection : Type := Connection Int InstructionPacket

abbrev MemoryConnection : Type := Connection InstructionPacket InstructionPacket

abbrev PredictorConnection : Type := Connection PredictorPacket PredictorPacket

end Sinuca3.Source
