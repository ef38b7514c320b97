import Sinuca3.Lib.Machine
import Sinuca3.Source.TraceGenerator.Instrumentation

/-!
# Routines of the program

`OnImageLoad` of `x86_trace_generator/sinuca3_pintool.cpp`, which looks at the name of every
routine of the main executable and inserts calls at its entry and at its return. What it
inserts is what the tool does whenever a thread runs through the routine.
-/
namespace Sinuca3.Source
open Lib

def threadEventBarrierSync : BitVec 32 := 0
def threadEventCriticalStart : BitVec 32 := 1
def threadEventCriticalEnd : BitVec 32 := 2

inductive IPOINT where
  | before
  | after
  deriving DecidableEq

inductive RtnCall where
  | initInstrumentation
  | stopInstrumentation
  | onThreadEvent (evType : BitVec 32) (isMasterThreadEv : Bool)
  | stopInstrumentationInThread
  | resumeInstrumentationInThread
  deriving DecidableEq

/-- `RTN_InsertCall`. -/
structure InsertedCall where
  point : IPOINT
  call : RtnCall
  deriving DecidableEq

def ompBarrierMasterStartVec : List CString := ["gomp_team_start"].map octets

def ompBarrierMasterEndVec : List CString := ["gomp_team_end"].map octets

def ompBarrierSimpleVec : List CString :=
  ["GOMP_barrier", "GOMP_loop_dynamic_start", "GOMP_loop_ordered_static_start",
    "GOMP_loop_guided_start", "GOMP_loop_end", "GOMP_parallel_sections_start",
    "GOMP_sections_end"].map octets

def ompCriticalStartVec : List CString :=
  ["GOMP_atomic_start", "GOMP_critical_start", "GOMP_critical_name_start"].map octets

def ompCriticalEndVec : List CString :=
  ["GOMP_atomic_end", "GOMP_critical_end", "GOMP_critical_name_end"].map octets

def instStart : CString := octets "BeginInstrumentationBlock"
def instEnd : CString := octets "EndInstrumentationBlock"

/-- A routine on its way through the loop: `routineTreated`, and what was inserted. -/
structure TreatedRtn where
  routineTreated : Bool := false
  inserted : List InsertedCall := []

/-- A loop over one of the vectors. -/
def TreatedRtn.treat (names : List CString) (call : InsertedCall) (rtnName : CString)
    (r : TreatedRtn) : TreatedRtn :=
  if !r.routineTreated && names.contains rtnName then ⟨true, r.inserted ++ [call]⟩ else r

def treatBlocks (rtnName : CString) : TreatedRtn :=
  if rtnName = instStart then ⟨true, [⟨.before, .initInstrumentation⟩]⟩
  else if rtnName = instEnd then ⟨true, [⟨.before, .stopInstrumentation⟩]⟩
  else {}

def treatThreadEvents (rtnName : CString) (r : TreatedRtn) : TreatedRtn :=
  let r := r.treat ompBarrierMasterStartVec
    ⟨.after, .onThreadEvent threadEventBarrierSync true⟩ rtnName
  let r := r.treat ompBarrierMasterEndVec
    ⟨.before, .onThreadEvent threadEventBarrierSync true⟩ rtnName
  let r := r.treat ompBarrierSimpleVec
    ⟨.before, .onThreadEvent threadEventBarrierSync false⟩ rtnName
  let r := r.treat ompCriticalStartVec
    ⟨.before, .onThreadEvent threadEventCriticalStart false⟩ rtnName
  r.treat ompCriticalEndVec ⟨.before, .onThreadEvent threadEventCriticalEnd false⟩ rtnName

/-- The loop over the intrinsics, up to its `break`. -/
def treatLoader (intrinsics : List IntrinsicInfo) (rtnName : CString) : List InsertedCall :=
  if intrinsics.any fun intrinsic => rtnName = stringAt intrinsic.loaderName.toList 0 then
    [⟨.before, .stopInstrumentationInThread⟩, ⟨.after, .resumeInstrumentationInThread⟩]
  else []

/-- The body of the loop over the routines. -/
def treatRoutine (intrinsics : List IntrinsicInfo) (rtnName : CString) : List InsertedCall :=
  let r := treatBlocks rtnName
  if rtnName.take 4 ≠ octets "gomp" ∧ rtnName.take 4 ≠ octets "GOMP" then r.inserted
  else (treatThreadEvents rtnName r).inserted ++ treatLoader intrinsics rtnName

def RtnCall.step (tid : THREADID) : RtnCall → ToolStep
  | .initInstrumentation => .initInstrumentation
  | .stopInstrumentation => .stopInstrumentation
  | .onThreadEvent evType isMasterThreadEv => .call tid (.onThreadEvent evType isMasterThreadEv)
  | .stopInstrumentationInThread => .stopInstrumentationInThread tid
  | .resumeInstrumentationInThread => .resumeInstrumentationInThread tid

/-- What happens to a program under the tool. -/
inductive ProgramStep where
  | onThreadStart (tid : THREADID) (dynamicOpens memoryOpens : Bool)
  /-- A thread enters a routine of the main executable, or returns from it. -/
  | routine (tid : THREADID) (point : IPOINT) (rtnName : CString)
  | onTrace (tid : THREADID) (trace : TRACE)
  /-- Code of the program runs into a call that `OnTrace` inserted. -/
  | appendToDynamicTrace (tid : THREADID) (bblId numInst : BitVec 32)
  | appendToMemTrace (tid : THREADID) (accessInfo : List MemAccess)
  | onThreadFini (tid : THREADID)
  /-- A callback that has begun goes on. -/
  | resume (tid : THREADID)

namespace ProgramStep

/-- What the tool does then. -/
def toolSteps (intrinsics : List IntrinsicInfo) : ProgramStep → List ToolStep
  | .onThreadStart tid dynamicOpens memoryOpens =>
    [.onThreadStart tid dynamicOpens memoryOpens]
  | .routine tid point rtnName =>
    ((treatRoutine intrinsics rtnName).filter (·.point = point)).map (·.call.step tid)
  | .onTrace tid trace => [.onTrace tid trace]
  | .appendToDynamicTrace tid bblId numInst => [.call tid (.appendToDynamicTrace bblId numInst)]
  | .appendToMemTrace tid accessInfo => [.call tid (.appendToMemTrace accessInfo)]
  | .onThreadFini tid => [.call tid .onThreadFini]
  | .resume tid => [.resume tid]

end ProgramStep

/-- The tool on a program. -/
def Tool.programStep (t : Tool) (step : ProgramStep) : Tool × List PintoolEvent :=
  Machine.run Tool.step t (step.toolSteps t.intrinsics)

end Sinuca3.Source
