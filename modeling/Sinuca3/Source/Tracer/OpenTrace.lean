import Sinuca3.Source.Tracer.StaticTrace
import Sinuca3.Source.Tracer.TraceFile
import Sinuca3.Source.Tracer.TraceReader

/-!
# Opening a trace

`OpenTrace` of `tracer/sinuca/trace_reader.cpp`, on the octets of the files of an image. The
files of a thread are opened as in `TraceFile`; `Fetch` works on them through `dynamic` and
`memory`, the same readers over records. `fetch_withDict` says that of the dictionary `Fetch`
sees only what is inside the blocks.
-/
namespace Sinuca3.Source
open Lib

/-- The files of an image in a directory, those of threads by their number. -/
structure TraceDirectory where
  staticTrace : Option (List Byte)
  dynamicTrace : Nat → Option (List Byte)
  memoryTrace : Nat → Option (List Byte)

/-- The files of a thread. -/
structure OpenedThread where
  dynFile : DynamicTraceFile
  memFile : MemoryTraceFile

namespace OpenedThread

def allocate (directory : TraceDirectory) (tid : Nat) : Option OpenedThread := do
  let dynamicTrace ← directory.dynamicTrace tid
  let dynFile ← TraceFile.openFile dynamicTrace
  let memoryTrace ← directory.memoryTrace tid
  let memFile ← TraceFile.openFile memoryTrace
  return { dynFile, memFile }

/-- Non-zero return codes are `true` here and below. -/
def checkVersion (t : OpenedThread) (version : BitVec 8) : Bool :=
  t.dynFile.header.traceVersion ≠ version || t.memFile.header.traceVersion ≠ version

def checkTargetArch (t : OpenedThread) (target : BitVec 8) : Bool :=
  t.dynFile.header.targetArch ≠ target || t.memFile.header.targetArch ≠ target

/-- The constructor, and one turn of the loop of `OpenTrace`. -/
def openThread (directory : TraceDirectory) (header : FileHeader) (tid : Nat) :
    Option OpenedThread := do
  let t ← allocate directory tid
  if t.checkVersion header.traceVersion then none
  else if t.checkTargetArch header.targetArch then none
  else some t

def threadData (t : OpenedThread) (fetchedInst : BitVec 64) : ThreadData where
  dynFile := t.dynFile.dynamic
  memFile := t.memFile.memory
  currentBasicBlock := 0
  fetchedInst
  currentInst := 0
  isInsideBasicBlock := false

end OpenedThread

def StaticTraceReader.getNumThreads (r : StaticTraceReader) : Nat := r.header.threadCount.toNat

/-- `instructionDict[bblIndex][inst]`, a pointer into the pool. -/
def InstructionDict.instruction (dict : InstructionDict) (bblIndex inst : Nat) :
    StaticInstructionInfo :=
  dict.instructionPool.getD (dict.instructionDict.getD bblIndex 0 + inst) default

namespace SinucaTraceReader

/-- `OpenTrace`, in a process that has opened no other; `none` is a failure. The counters of
fetched instructions are not set. -/
def openDirectory (directory : TraceDirectory) (garbage : Nat → BitVec 64) :
    Option SinucaTraceReader := do
  let octets ← directory.staticTrace
  let staticTrace ← StaticTraceReader.openFile octets
  let threads ← (List.range staticTrace.getNumThreads).mapM
    (OpenedThread.openThread directory staticTrace.header)
  let dict ← generateInstructionDict staticTrace
  return {
    totalThreads := staticTrace.getNumThreads
    basicBlockSizeArr := fun bblIndex => (dict.basicBlockSizeArr.getD bblIndex 0 : Nat)
    instructionDict := dict.instruction
    threadDataVec := fun tid =>
      match threads[tid]? with
      | some t => t.threadData (garbage tid)
      | none => {
          dynFile := .openFile []
          memFile := .openFile []
          currentBasicBlock := 0
          fetchedInst := garbage tid
          currentInst := 0
          isInsideBasicBlock := false } }

/-- The reader with another dictionary. -/
def withDict (s : SinucaTraceReader) (dict : Nat → Nat → StaticInstructionInfo) :
    SinucaTraceReader := { s with instructionDict := dict }

section Dictionaries

variable (s : SinucaTraceReader) (dict : Nat → Nat → StaticInstructionInfo) (tid : Nat)

theorem readRecord_withDict :
    (s.withDict dict).readRecord tid =
      ((s.readRecord tid).1, (s.readRecord tid).2.withDict dict) := rfl

theorem failedRead_withDict :
    (s.withDict dict).failedRead tid = (s.failedRead tid).withDict dict := by
  have same : (s.withDict dict).threadDataVec tid = s.threadDataVec tid := rfl
  unfold failedRead
  rw [same]
  split <;> rfl

theorem eventLoop_withDict (fuel : Nat) :
    eventLoop fuel (s.withDict dict) tid =
      ((eventLoop fuel s tid).1, (eventLoop fuel s tid).2.withDict dict) := by
  induction fuel generalizing s with
  | zero => rfl
  | succ fuel ih =>
    rw [eventLoop, eventLoop]
    have same : ((s.withDict dict).threadDataVec tid).dynFile = (s.threadDataVec tid).dynFile := rfl
    rw [same]
    cases (s.threadDataVec tid).dynFile.current.getRecordType with
    | threadEvent =>
      have handled : (s.withDict dict).handleEvent = s.handleEvent := rfl
      dsimp only
      rw [handled]
      rcases s.handleEvent tid (s.threadDataVec tid).dynFile.current.getThreadEvent with ⟨c, _ | _⟩
      · have read := (s.setControl c).readRecord_withDict dict tid
        have place : (s.withDict dict).setControl c = (s.setControl c).withDict dict := rfl
        dsimp only
        rw [place, read]
        rcases (s.setControl c).readRecord tid with ⟨_ | _, s'⟩
        · exact ih s'
        · exact congrArg (Prod.mk true) (s'.failedRead_withDict dict tid)
      · rfl
    | basicBlockIdentifier => rfl
    | unknown code => rfl

theorem fetchBasicBlock_withDict :
    (s.withDict dict).fetchBasicBlock tid =
      ((s.fetchBasicBlock tid).1, (s.fetchBasicBlock tid).2.withDict dict) := by
  unfold fetchBasicBlock
  rw [readRecord_withDict]
  rcases s.readRecord tid with ⟨_ | _, s'⟩
  · exact s'.eventLoop_withDict dict tid _
  · exact congrArg (Prod.mk true) (s'.failedRead_withDict dict tid)

theorem fetchMemoryData_withDict (ret : InstructionPacket) :
    (s.withDict dict).fetchMemoryData ret tid =
      ((s.fetchMemoryData ret tid).1, (s.fetchMemoryData ret tid).2.1,
        (s.fetchMemoryData ret tid).2.2.withDict dict) := by
  unfold fetchMemoryData
  have same : (s.withDict dict).threadDataVec tid = s.threadDataVec tid := rfl
  dsimp only
  rw [same]
  split <;> rfl

/-- The two dictionaries have the same instruction where the thread is. -/
def SameInstruction : Prop :=
  dict (s.threadDataVec tid).currentBasicBlock (s.threadDataVec tid).currentInst =
    s.instructionDict (s.threadDataVec tid).currentBasicBlock (s.threadDataVec tid).currentInst

theorem fetchInstruction_withDict (ret : InstructionPacket) (same : s.SameInstruction dict tid) :
    (s.withDict dict).fetchInstruction ret tid =
      ((s.fetchInstruction ret tid).1, (s.fetchInstruction ret tid).2.1,
        (s.fetchInstruction ret tid).2.2.withDict dict) := by
  have here : (s.withDict dict).instructionDict (s.threadDataVec tid).currentBasicBlock
      (s.threadDataVec tid).currentInst = s.instructionDict
      (s.threadDataVec tid).currentBasicBlock (s.threadDataVec tid).currentInst := same
  have thread : (s.withDict dict).threadDataVec tid = s.threadDataVec tid := rfl
  unfold fetchInstruction
  dsimp only
  rw [thread, here]
  split
  · rw [fetchMemoryData_withDict]
    rcases s.fetchMemoryData _ tid with ⟨_ | _, p, s'⟩ <;> rfl
  · rfl

/-- A call with another dictionary returns the same and leaves the same. -/
theorem fetch_withDict (ret : InstructionPacket)
    (inside : (s.threadDataVec tid).isInsideBasicBlock = true → s.SameInstruction dict tid)
    (entered : ∀ s', (s.setThread tid { s.threadDataVec tid with currentInst := 0 }).fetchBasicBlock
        tid = (false, s') →
      (s'.setThread tid { s'.threadDataVec tid with isInsideBasicBlock := true }).SameInstruction
        dict tid) :
    (s.withDict dict).fetch ret tid =
      ((s.fetch ret tid).1, (s.fetch ret tid).2.1, (s.fetch ret tid).2.2.withDict dict) := by
  have ended : (s.withDict dict).hasExecutionEnded = s.hasExecutionEnded := rfl
  have thread : (s.withDict dict).threadDataVec tid = s.threadDataVec tid := rfl
  have sleeping : (s.withDict dict).isThreadSleeping tid = s.isThreadSleeping tid := rfl
  unfold fetch
  rw [ended, thread, sleeping]
  split
  · rfl
  · split
    · rfl
    · split
      · rfl
      · split
        · rename_i block
          exact s.fetchInstruction_withDict dict tid ret (inside block)
        · have place : (s.withDict dict).setThread tid
              { s.threadDataVec tid with currentInst := 0 } =
              (s.setThread tid { s.threadDataVec tid with currentInst := 0 }).withDict dict := rfl
          rw [place, fetchBasicBlock_withDict]
          rcases searched : (s.setThread tid
            { s.threadDataVec tid with currentInst := 0 }).fetchBasicBlock tid with ⟨_ | _, s'⟩
          · exact fetchInstruction_withDict _ dict tid ret (entered s' searched)
          · rfl

end Dictionaries

end SinucaTraceReader

end Sinuca3.Source
