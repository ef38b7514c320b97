import Sinuca3.Source.TraceGenerator.IntrinsicEncoding
import Sinuca3.Source.TraceGenerator.Pintool
import Sinuca3.Source.Tracer.OpenTrace

/-!
# Instrumentation of the trace generator

`OnTrace` of `x86_trace_generator/sinuca3_pintool.cpp`, what it calls, and the routines that
switch it on and off. What Pin says about an instruction is an `INS`. Pin keeps code with
the calls that were inserted into it, and that is what the program executes from then on.
-/
namespace Sinuca3.Source
open Lib

/-- What Pin answers about an instruction. -/
structure INS where
  mnemonic : CString := []
  address : BitVec 64 := 0
  size : BitVec 64 := 0
  isCacheLineFlush : Bool := false
  isCall : Bool := false
  isSyscall : Bool := false
  isRet : Bool := false
  isSysret : Bool := false
  hasFallThrough : Bool := false
  isBranch : Bool := false
  isIndirectControlFlow : Bool := false
  isMemoryRead : Bool := false
  isMemoryWrite : Bool := false
  isPredicated : Bool := false
  isAtomicUpdate : Bool := false
  operands : List PinOperand := []
  /-- The routine at the target of a direct control flow, where both are. -/
  targetName : Option CString := none

structure BBL where
  instructions : List INS
  nonempty : instructions ≠ []

structure TRACE where
  /-- Of a valid routine. -/
  rtnName : Option CString
  bbls : List BBL

/-- A `BOOL` in an octet. -/
def flagOctet (flag : Bool) : BitVec 8 := if flag then 1 else 0

/-- The loop over the operands, which an error leaves with what there is so far. -/
def translateOperandLoop : Instruction → List PinOperand → Bool × Instruction
  | inst, [] => (false, inst)
  | inst, operand :: operands =>
    if !operand.isReg then translateOperandLoop inst operands
    else
      match storeRead inst operand with
      | none => (true, inst)
      | some inst =>
        match storeWritten inst operand with
        | none => (true, inst)
        | some inst => translateOperandLoop inst operands

/-- `TranslatePinInst` before its loop. -/
def translatePinFields (pinInst : INS) : Instruction where
  instructionMnemonic := Vector.ofFn fun i =>
    if i.val < instMnemonicLen - 1 then pinInst.mnemonic[i.val]?.getD 0 else 0
  instructionAddress := pinInst.address
  instructionSize := pinInst.size
  instCausesCacheLineFlush := flagOctet pinInst.isCacheLineFlush
  isCallInstruction := flagOctet pinInst.isCall
  isSyscallInstruction := flagOctet pinInst.isSyscall
  isRetInstruction := flagOctet pinInst.isRet
  isSysretInstruction := flagOctet pinInst.isSysret
  instHasFallthrough := flagOctet pinInst.hasFallThrough
  isBranchInstruction := flagOctet pinInst.isBranch
  isIndirectCtrlFlowInst := flagOctet pinInst.isIndirectControlFlow
  instReadsMemory := flagOctet pinInst.isMemoryRead
  instWritesMemory := flagOctet pinInst.isMemoryWrite
  isPredicatedInst := flagOctet pinInst.isPredicated
  instPerformsAtomicUpdate := flagOctet pinInst.isAtomicUpdate

/-- Non-zero return codes are `true`; the instruction is filled as far as it goes. -/
def translatePinInst (pinInst : INS) : Bool × Instruction :=
  translateOperandLoop (translatePinFields pinInst) pinInst.operands

def getIntrinsicInfo (intrinsics : List IntrinsicInfo) (ins : INS) : Option IntrinsicInfo :=
  match ins.targetName with
  | none => none
  | some targetName =>
    intrinsics.find? fun intrinsic => targetName = stringAt intrinsic.loaderName.toList 0

/-- What `OnTrace` adds to the static trace for an instruction. Errors are only printed. -/
def addedInstruction (intrinsics : List IntrinsicInfo) (ins : INS) : Instruction :=
  match getIntrinsicInfo intrinsics ins with
  | some intrinsic => (intrinsicToSinucaInst ins.address ins.size intrinsic).inst
  | none => (translatePinInst ins).2

/-- Whether it inserts a call of `AppendToMemTrace` before the instruction. -/
def callsAppendToMemTrace (intrinsics : List IntrinsicInfo) (ins : INS) : Bool :=
  (getIntrinsicInfo intrinsics ins).isNone && (ins.isMemoryRead || ins.isMemoryWrite)

/-- A block with the calls that were inserted into it: one of `AppendToDynamicTrace`, and
one of `AppendToMemTrace` at some of its instructions. -/
structure InstrumentedBlock where
  bbl : BBL
  basicBlockIndex : BitVec 32
  numberInstInBasicBlock : BitVec 32
  memoryCalls : List INS

def instrumentIns (intrinsics : List IntrinsicInfo) (staticTrace : StaticTraceWriter)
    (ins : INS) : StaticTraceWriter :=
  (staticTrace.incStaticInstructionCount.addInstruction (addedInstruction intrinsics ins)).2

/-- One turn of the loop over the blocks of a trace. -/
def instrumentBbl (intrinsics : List IntrinsicInfo) (staticTrace : StaticTraceWriter)
    (bbl : BBL) : StaticTraceWriter × InstrumentedBlock :=
  let numberInstInBasicBlock := BitVec.ofNat 32 bbl.instructions.length
  let basicBlockIndex := staticTrace.header.bblCount
  let staticTrace := (staticTrace.addBasicBlockSize numberInstInBasicBlock).2
  let staticTrace := staticTrace.incBasicBlockCount
  (bbl.instructions.foldl (instrumentIns intrinsics) staticTrace,
    { bbl, basicBlockIndex, numberInstInBasicBlock
      memoryCalls := bbl.instructions.filter (callsAppendToMemTrace intrinsics) })

def instrumentBbls (intrinsics : List IntrinsicInfo) :
    StaticTraceWriter → List BBL → StaticTraceWriter × List InstrumentedBlock
  | staticTrace, [] => (staticTrace, [])
  | staticTrace, bbl :: bbls =>
    let first := instrumentBbl intrinsics staticTrace bbl
    let rest := instrumentBbls intrinsics first.1 bbls
    (rest.1, first.2 :: rest.2)

/-- As `OnImageLoad` fills it. -/
def ignoreRtnsVec : List CString :=
  ["gomp_mutex_lock_slow", "gomp_sem_wait_slow", "gomp_ptrlock_get_slow",
    "gomp_barrier_wait_end", "pthread_mutex_lock", "pthread_mutex_cond_lock",
    "pthread_spinlock", "pthread_mutex_timedlock"].map octets

/-- A call that `OnTrace` or `OnImageLoad` inserted, with its arguments. -/
inductive AnalysisCall where
  | appendToDynamicTrace (bblId numInst : BitVec 32)
  | appendToMemTrace (accessInfo : List MemAccess)
  | onThreadEvent (evType : BitVec 32) (isMasterThreadEv : Bool)
  | onThreadFini

def AnalysisCall.callback : AnalysisCall → Callback
  | .appendToDynamicTrace bblId numInst => .appendToDynamicTrace bblId numInst
  | .appendToMemTrace accessInfo => Source.appendToMemTrace accessInfo
  | .onThreadEvent evType isMasterThreadEv => .onThreadEvent evType isMasterThreadEv
  | .onThreadFini => .onThreadFini

/-- The tool, with the code that Pin keeps for the program. -/
structure Tool where
  pin : PinState
  isInstrumentating : Bool
  wasInitInstrumentationCalled : Bool := false
  knobForceInstrumentation : Bool := false
  /-- `isInstrumentating` of the data of the threads. -/
  threadIsInstrumentating : List Bool := []
  intrinsics : List IntrinsicInfo
  codeCache : List InstrumentedBlock := []

inductive ToolStep where
  | onThreadStart (tid : THREADID) (dynamicOpens memoryOpens : Bool)
  /-- Pin has code to instrument. -/
  | onTrace (tid : THREADID) (trace : TRACE)
  | call (tid : THREADID) (call : AnalysisCall)
  | resume (tid : THREADID)
  | initInstrumentation
  | stopInstrumentation
  | resumeInstrumentationInThread (tid : THREADID)
  | stopInstrumentationInThread (tid : THREADID)

namespace Tool

/-- Once `main` and `OnImageLoad` are done. -/
def initial (intrinsics : List IntrinsicInfo) (knobForceInstrumentation : Bool)
    (knobNumberOfInstructions : BitVec 32) : Tool where
  pin := PinState.initial StaticTraceWriter.create.openFile knobNumberOfInstructions
  isInstrumentating := knobForceInstrumentation
  wasInitInstrumentationCalled := knobForceInstrumentation
  knobForceInstrumentation
  intrinsics

/-- The checks of `OnTrace` before its loop. A flag behind the vector, which the source reads
where it is, counts as unset. -/
def instruments (t : Tool) (tid : THREADID) (trace : TRACE) : Bool :=
  t.isInstrumentating && t.pin.tool.wasThreadCreated tid &&
    t.threadIsInstrumentating.getD tid.toNat false &&
    match trace.rtnName with
    | none => false
    | some rtnName => rtnName ∉ ignoreRtnsVec

def onTrace (t : Tool) (tid : THREADID) (trace : TRACE) : Tool :=
  if t.instruments tid trace then
    let instrumented := instrumentBbls t.intrinsics t.pin.tool.staticTrace trace.bbls
    { t with
      pin := { t.pin with tool := { t.pin.tool with staticTrace := instrumented.1 } }
      codeCache := t.codeCache ++ instrumented.2 }
  else t

def initInstrumentation (t : Tool) : Tool :=
  if t.isInstrumentating then t
  else { t with wasInitInstrumentationCalled := true, isInstrumentating := true }

def stopInstrumentation (t : Tool) : Tool :=
  if !t.isInstrumentating || t.knobForceInstrumentation then t
  else { t with isInstrumentating := false }

def setThreadInstrumentating (t : Tool) (tid : THREADID) (flag : Bool) : Tool :=
  if t.pin.tool.wasThreadCreated tid then
    { t with threadIsInstrumentating := t.threadIsInstrumentating.set tid.toNat flag }
  else t

/-- A step that threads and their callbacks make. -/
def pinStep (t : Tool) (step : PinStep) : Tool × List PintoolEvent :=
  let next := t.pin.step step
  ({ t with pin := next.1 }, next.2)

def step (t : Tool) : ToolStep → Tool × List PintoolEvent
  | .onThreadStart tid dynamicOpens memoryOpens =>
    let next := t.pinStep (.onThreadStart tid dynamicOpens memoryOpens)
    if t.pin.tool.lockIsKept then next
    else
      ({ next.1 with threadIsInstrumentating := t.threadIsInstrumentating ++ [true] }, next.2)
  | .onTrace tid trace => (t.onTrace tid trace, [])
  | .call tid call => t.pinStep (.call tid call.callback)
  | .resume tid => t.pinStep (.resume tid)
  | .initInstrumentation => (t.initInstrumentation, [])
  | .stopInstrumentation => (t.stopInstrumentation, [])
  | .resumeInstrumentationInThread tid => (t.setThreadInstrumentating tid true, [])
  | .stopInstrumentationInThread tid => (t.setThreadInstrumentating tid false, [])

/-- The file of a writer, closed if its thread has ended. -/
def threadFile {α : Type} (c : Codec α) (threadData : Pintool.ThreadData) (w : TraceWriter α) :
    Option (List Byte) :=
  (if threadData.deleted then w.destroy c else w.file).map File.content

/-- The files once `OnFini` is done. -/
def directory (t : Tool) : TraceDirectory where
  staticTrace := t.pin.tool.staticTrace.destroy.map File.content
  dynamicTrace := fun tid =>
    (t.pin.tool.threadDataVec.find? fun d => d.openedFor.toNat = tid).bind fun d =>
      threadFile DynamicTraceRecord.codec d d.dynamicTrace
  memoryTrace := fun tid =>
    (t.pin.tool.threadDataVec.find? fun d => d.openedFor.toNat = tid).bind fun d =>
      threadFile MemoryTraceRecord.codec d d.memoryTrace

end Tool

end Sinuca3.Source
