import Sinuca3.Lib.File
import Sinuca3.Source.Tracer.FileHandler

/-!
# Octets of a trace file

The packed layouts of `tracer/sinuca/file_handler.hpp` on a little-endian machine,
and `FileHeader` of `file_handler.cpp`. All paths of the file name functions name
the one file a reader or writer is given here.
-/
namespace Sinuca3.Source
open Lib

def DynamicTraceRecord.codec : Codec DynamicTraceRecord :=
  (Codec.u32.prod .u8).retract (fun r => (r.data, r.recordType)) (fun p => ⟨p.1, p.2⟩) fun _ => rfl

def MemoryTraceRecord.codec : Codec MemoryTraceRecord :=
  (Codec.u64.prod (Codec.u16.prod .u8)).retract (fun r => (r.address, r.size, r.recordType))
    (fun p => ⟨p.1, p.2.1, p.2.2⟩) fun _ => rfl

/-- `FileType`. -/
def fileTypeStaticTrace : BitVec 8 := 0
def fileTypeDynamicTrace : BitVec 8 := 1
def fileTypeMemoryTrace : BitVec 8 := 2

def prefixStaticFile : Vector (BitVec 8) 4 := #v[83, 51, 83, 0]
def prefixDynamicFile : Vector (BitVec 8) 4 := #v[83, 51, 68, 0]
def prefixMemoryFile : Vector (BitVec 8) 4 := #v[83, 51, 77, 0]

/-- `data` is the union of the static counters and the dynamic one. -/
structure FileHeader where
  magicNumber : BitVec 8 := 187
  filePrefix : Vector (BitVec 8) 4 := #v[0, 0, 0, 0]
  fileType : BitVec 8 := 0
  traceVersion : BitVec 8 := 1
  targetArch : BitVec 8 := 0
  data : BitVec 80 := 0

namespace FileHeader

def codec : Codec FileHeader :=
  (Codec.u8.prod ((Codec.u8.vector 4).prod (Codec.u8.prod (Codec.u8.prod (Codec.u8.prod
      (.littleEndian 80 10 fun v => v.isLt)))))).retract
    (fun h => (h.magicNumber, h.filePrefix, h.fileType, h.traceVersion, h.targetArch, h.data))
    (fun p => ⟨p.1, p.2.1, p.2.2.1, p.2.2.2.1, p.2.2.2.2.1, p.2.2.2.2.2⟩) fun _ => rfl

/-- `sizeof(FileHeader)`. -/
theorem width_codec : codec.width = 18 := rfl

def totalExecutedInstructions (h : FileHeader) : BitVec 64 := h.data.extractLsb' 0 64

def setTotalExecutedInstructions (h : FileHeader) (total : BitVec 64) : FileHeader :=
  { h with data := h.data.extractLsb' 64 16 ++ total }

@[simp] theorem totalExecutedInstructions_set (h : FileHeader) (total : BitVec 64) :
    (h.setTotalExecutedInstructions total).totalExecutedInstructions = total := by
  simp only [totalExecutedInstructions, setTotalExecutedInstructions]
  exact BitVec.extractLsb'_append_eq_right

def instCount (h : FileHeader) : BitVec 32 := h.data.extractLsb' 0 32

def bblCount (h : FileHeader) : BitVec 32 := h.data.extractLsb' 32 32

def threadCount (h : FileHeader) : BitVec 16 := h.data.extractLsb' 64 16

def setStaticHeader (h : FileHeader) (instCount bblCount : BitVec 32) (threadCount : BitVec 16) :
    FileHeader := { h with data := threadCount ++ bblCount ++ instCount }

section StaticHeader

variable (h : FileHeader) (i b : BitVec 32) (t : BitVec 16)

@[simp] theorem instCount_setStaticHeader : (h.setStaticHeader i b t).instCount = i := by
  simp only [instCount, setStaticHeader]
  exact BitVec.extractLsb'_append_eq_right

@[simp] theorem bblCount_setStaticHeader : (h.setStaticHeader i b t).bblCount = b := by
  simp only [bblCount, setStaticHeader]
  rw [BitVec.extractLsb'_append_eq_of_le (by decide)]
  exact BitVec.extractLsb'_append_eq_right

@[simp] theorem threadCount_setStaticHeader : (h.setStaticHeader i b t).threadCount = t := by
  simp only [threadCount, setStaticHeader]
  rw [BitVec.extractLsb'_append_eq_of_le (by decide)]
  exact BitVec.extractLsb'_append_eq_left

end StaticHeader

/-- The constructor. -/
def create : FileHeader := {}

/-- The prefix of an unknown type is an error, which is printed. -/
def setHeaderType (h : FileHeader) (fileType : BitVec 8) : FileHeader :=
  let h := { h with fileType := fileType }
  if h.fileType = fileTypeStaticTrace then { h with filePrefix := prefixStaticFile }
  else if h.fileType = fileTypeDynamicTrace then { h with filePrefix := prefixDynamicFile }
  else if h.fileType = fileTypeMemoryTrace then { h with filePrefix := prefixMemoryFile }
  else h

/-- Non-zero return codes are `true`, and a null file is `none`. -/
def flushHeader (h : FileHeader) : Option File → Bool × Option File
  | none => (true, none)
  | some file =>
    let orgPos := file.ftell
    let file := file.rewind.fwrite (codec.encode h)
    (false, some (file.fseek orgPos))

/-- A header cut short is an error. -/
def loadHeader (file : File) : Option (FileHeader × File) :=
  let read := file.fread codec.width
  if read.1.length ≠ codec.width then none else some (codec.decode read.1, read.2)

def reserveHeaderSpace (file : File) : File := file.fseek codec.width

theorem flushHeader_reserved (h : FileHeader) {data : List Byte} {file : File}
    (reserved : File.Reserved codec.width data file) :
    ∃ f, h.flushHeader (some file) = (false, some f) ∧ f.content = codec.encode h ++ data :=
  ⟨_, rfl, reserved.header _ (codec.length_encode h) (by decide)⟩

theorem loadHeader_encode (h : FileHeader) (data : List Byte) :
    ∃ f, loadHeader { content := codec.encode h ++ data } = some (h, f) ∧ f.remaining = data := by
  have read := File.remaining_header (codec.encode h) data
  rw [codec.length_encode] at read
  refine ⟨_, ?_, read.2⟩
  simp only [loadHeader, read.1, codec.length_encode, ne_eq, not_true_eq_false, if_false,
    codec.decode_encode]

end FileHeader

end Sinuca3.Source
