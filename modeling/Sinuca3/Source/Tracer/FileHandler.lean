import Sinuca3.Source.Engine.DefaultPackets

/-!
# Trace records

`tracer/sinuca/file_handler.hpp`. Records are modelled after decoding: a trace
file is its list of whole records, and a partial record at the end of a file is
dropped by the readers' division by the record size.
-/
namespace Sinuca3.Source

/-- Records a reader buffers at a time; only its being positive matters. -/
def recordArraySize : Nat := 10000

theorem recordArraySize_pos : 0 < recordArraySize := by decide

inductive ThreadEventType where
  | barrierSync | criticalStart | criticalEnd | abruptEnd
  | unknown (code : BitVec 32)
  deriving DecidableEq, Repr

inductive DynamicTraceRecordType where
  | basicBlockIdentifier | threadEvent
  | unknown (code : BitVec 8)
  deriving DecidableEq, Repr

/-- The union of a block identifier and an event code, and the tag octet. -/
structure DynamicTraceRecord where
  data : BitVec 32 := 0
  recordType : BitVec 8 := 0
  deriving DecidableEq, Repr, Inhabited

namespace DynamicTraceRecord

def getRecordType (r : DynamicTraceRecord) : DynamicTraceRecordType :=
  if r.recordType = 0 then .basicBlockIdentifier
  else if r.recordType = 1 then .threadEvent
  else .unknown r.recordType

def getBasicBlockIdentifier (r : DynamicTraceRecord) : Nat := r.data.toNat

def getThreadEvent (r : DynamicTraceRecord) : ThreadEventType :=
  if r.data = 0 then .barrierSync
  else if r.data = 1 then .criticalStart
  else if r.data = 2 then .criticalEnd
  else if r.data = 3 then .abruptEnd
  else .unknown r.data

/-- The record of a basic block, and below that of a thread event. -/
def basicBlock (basicBlockId : BitVec 32) : DynamicTraceRecord := { data := basicBlockId }

def threadEvent (threadEvent : BitVec 32) : DynamicTraceRecord :=
  { data := threadEvent, recordType := 1 }

end DynamicTraceRecord

inductive MemoryRecordType where
  | header | load | store
  | unknown (code : BitVec 8)
  deriving DecidableEq, Repr

/-- The operation member of the union and the tag octet. -/
structure MemoryTraceRecord where
  address : BitVec 64 := 0
  size : BitVec 16 := 0
  recordType : BitVec 8 := 0
  deriving DecidableEq, Repr, Inhabited

namespace MemoryTraceRecord

def getRecordType (r : MemoryTraceRecord) : MemoryRecordType :=
  if r.recordType = 0 then .header
  else if r.recordType = 1 then .load
  else if r.recordType = 2 then .store
  else .unknown r.recordType

/-- The 32-bit count shares the low octets of the address. -/
def numberOfMemoryOps (r : MemoryTraceRecord) : Int := (r.address.setWidth 32).toInt

end MemoryTraceRecord

end Sinuca3.Source
