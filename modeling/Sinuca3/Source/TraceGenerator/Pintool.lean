import Sinuca3.Source.TraceGenerator.StaticTraceWriter
import Sinuca3.Source.TraceGenerator.TraceWriter

/-!
# Callbacks of the trace generator

`x86_trace_generator/sinuca3_pintool.cpp`, the callbacks that work on the data of
threads. Threads run them at the same time: one first evaluates `WasThreadCreated`, and
what it does under `threadAnalysisLock`, or without the lock in one call of a writer, is a
step of its own. What a step reads of `threadDataVec` it reads at once. Which callbacks
there are is decided by the instrumentation.
-/
namespace Sinuca3.Source

abbrev THREADID : Type := BitVec 32

/-- What a pointer of `threadDataVec` points to. `delete` leaves the pointer in place. -/
structure Pintool.ThreadData where
  dynamicTrace : DynamicTraceWriter
  memoryTrace : MemoryTraceWriter
  /-- The thread whose files the writers have opened. -/
  openedFor : THREADID
  deleted : Bool := false

structure Pintool where
  threadDataVec : List Pintool.ThreadData := []
  staticTrace : StaticTraceWriter
  numberOfExecInst : BitVec 64 := 0
  /-- `UINT_MAX` if there is no limit. -/
  knobNumberOfInstructions : BitVec 32
  /-- A callback has returned without releasing `threadAnalysisLock`. -/
  lockIsKept : Bool := false

/-- A member of `PIN_MULTI_MEM_ACCESS_INFO`. -/
structure MemAccess where
  memoryAddress : BitVec 64
  bytesAccessed : BitVec 32
  isLoad : Bool
  maskOn : Bool

inductive MemoryCall where
  | addNumberOfMemOperations (totalOps : BitVec 32)
  | addMemOp (op : MemoryTraceWriter.MemOp)

/-- What a callback has yet to do once it has found that its thread was created. -/
inductive Callback where
  | onThreadFini
  | appendToDynamicTrace (bblId numInst : BitVec 32)
  | appendToMemTrace (calls : List MemoryCall)
  | onThreadEvent (evType : BitVec 32) (isMasterThreadEv : Bool)

inductive PintoolEvent where
  /-- `OnThreadStart` has registered the data of the thread. -/
  | started (tid : THREADID)
  /-- A callback of the thread evaluated `WasThreadCreated`. -/
  | checked (tid : THREADID) (wasCreated : Bool)
  /-- A record for the trace of the thread was given to the writers opened for a thread,
  or to data that is deleted or was never there. -/
  | appended (tid : THREADID) (openedFor : Option THREADID)
  /-- `OnThreadFini` is over. -/
  | finished (tid : THREADID)
  deriving DecidableEq

/-- The calls of `AppendToMemTrace`, for the accesses whose mask is on. -/
def appendToMemTrace (accessInfo : List MemAccess) : Callback :=
  let accesses := accessInfo.filter MemAccess.maskOn
  .appendToMemTrace
    (.addNumberOfMemOperations (BitVec.ofNat 32 accesses.length) :: accesses.map fun access =>
      .addMemOp { address := access.memoryAddress, size := access.bytesAccessed,
                  isLoadOp := access.isLoad })

def threadEventAbruptEnd : BitVec 32 := 3

namespace Pintool

/-- The difference is one of `unsigned long`. -/
def wasThreadCreated (t : Pintool) (tid : THREADID) : Bool :=
  0 < BitVec.ofNat 64 t.threadDataVec.length - tid.setWidth 64

/-- The part of `OnThreadStart` under the lock, with the result of opening the files. -/
def onThreadStart (t : Pintool) (tid : THREADID) (dynamicOpens memoryOpens : Bool) : Pintool :=
  let dynamicTrace := DynamicTraceWriter.create
  let memoryTrace := MemoryTraceWriter.create
  let threadData : ThreadData :=
    { dynamicTrace := if dynamicOpens then dynamicTrace.openFile else dynamicTrace
      memoryTrace := if memoryOpens then memoryTrace.openFile else memoryTrace
      openedFor := tid }
  { t with
    threadDataVec := t.threadDataVec ++ [threadData]
    staticTrace := t.staticTrace.incThreadCount }

/-- A call of a writer of `threadDataVec[i]`; non-zero return codes are `true`. -/
def append (t : Pintool) (i : Nat) (write : ThreadData → Bool × ThreadData) :
    Bool × Pintool × List PintoolEvent :=
  match t.threadDataVec[i]? with
  | none => (false, t, [.appended (BitVec.ofNat 32 i) none])
  | some threadData =>
    if threadData.deleted then (false, t, [.appended (BitVec.ofNat 32 i) none])
    else
      let written := write threadData
      (written.1, { t with threadDataVec := t.threadDataVec.set i written.2 },
        [.appended (BitVec.ofNat 32 i) (some threadData.openedFor)])

def addThreadEvent (evType : BitVec 32) (threadData : ThreadData) : Bool × ThreadData :=
  let added := threadData.dynamicTrace.addThreadEvent evType
  (added.1, { threadData with dynamicTrace := added.2 })

def addBasicBlockId (bblId numInst : BitVec 32) (threadData : ThreadData) : Bool × ThreadData :=
  let added := (threadData.dynamicTrace.incExecutedInstructions numInst).addBasicBlockId bblId
  (added.1, { threadData with dynamicTrace := added.2 })

def memoryCall (call : MemoryCall) (threadData : ThreadData) : Bool × ThreadData :=
  let added := match call with
    | .addNumberOfMemOperations totalOps =>
      threadData.memoryTrace.addNumberOfMemOperations totalOps
    | .addMemOp op => threadData.memoryTrace.addMemOp op.address op.size op.isLoadOp
  (added.1, { threadData with memoryTrace := added.2 })

/-- The loops over `threadDataVec`. The one of `OnThreadEvent` stops if a call fails. -/
def broadcast (evType : BitVec 32) (stops : Bool) :
    List Nat → Pintool → Bool × Pintool × List PintoolEvent
  | [], t => (false, t, [])
  | i :: is, t =>
    let added := t.append i (addThreadEvent evType)
    if stops && added.1 then added
    else
      let rest := broadcast evType stops is added.2.1
      (rest.1, rest.2.1, added.2.2 ++ rest.2.2)

/-- The indices that a loop over `threadDataVec` from `first` on visits. -/
def indices (t : Pintool) (first : Nat) : List Nat :=
  List.range' first (t.threadDataVec.length - first)

def onThreadFini (t : Pintool) (tid : THREADID) : Pintool :=
  { t with
    threadDataVec := t.threadDataVec.modify tid.toNat fun threadData =>
      { threadData with deleted := true } }

/-- More instructions than the limit were executed. -/
def reachedMaximum (t : Pintool) : Bool :=
  t.knobNumberOfInstructions ≠ BitVec.allOnes 32 &&
    t.knobNumberOfInstructions.setWidth 64 < t.numberOfExecInst

/-- At the maximum this ends in `PIN_ExitApplication`. -/
def appendToDynamicTrace (t : Pintool) (tid : THREADID) (bblId numInst : BitVec 32) :
    Pintool × List PintoolEvent :=
  if t.reachedMaximum then
    let added := t.broadcast threadEventAbruptEnd false (t.indices 0)
    (added.2.1, added.2.2)
  else
    let t := { t with numberOfExecInst := t.numberOfExecInst + numInst.setWidth 64 }
    let added := t.append tid.toNat (addBasicBlockId bblId numInst)
    (added.2.1, added.2.2)

/-- A call that fails is followed by a return under the lock. -/
def onThreadEvent (t : Pintool) (tid : THREADID) (evType : BitVec 32) (isMasterThreadEv : Bool) :
    Pintool × List PintoolEvent :=
  let own := t.append tid.toNat (addThreadEvent evType)
  if own.1 then ({ own.2.1 with lockIsKept := true }, own.2.2)
  else if isMasterThreadEv then
    let others := own.2.1.broadcast evType true (own.2.1.indices 1)
    ({ others.2.1 with lockIsKept := others.1 || others.2.1.lockIsKept }, own.2.2 ++ others.2.2)
  else (own.2.1, own.2.2)

end Pintool

/-- A thread of the program as Pin has it. -/
inductive PinThread where
  | unborn
  | running
  /-- In a callback, past the check. -/
  | inCallback (callback : Callback)
  | ended

structure PinState where
  tool : Pintool
  threads : THREADID → PinThread := fun _ => .unborn

inductive PinStep where
  /-- `OnThreadStart` of the thread gets the lock. -/
  | onThreadStart (tid : THREADID) (dynamicOpens memoryOpens : Bool)
  /-- Pin calls a callback for the thread. -/
  | call (tid : THREADID) (callback : Callback)
  /-- The thread goes on with the callback it is in. -/
  | resume (tid : THREADID)

namespace PinState

/-- Before the first thread starts. -/
def initial (staticTrace : StaticTraceWriter) (knobNumberOfInstructions : BitVec 32) : PinState where
  tool := { staticTrace, knobNumberOfInstructions }

def setThread (s : PinState) (tid : THREADID) (thread : PinThread) : PinState :=
  { s with threads := Function.update s.threads tid thread }

theorem setThread_threads (s : PinState) (tid : THREADID) (thread : PinThread) (other : THREADID) :
    (s.setThread tid thread).threads other = if other = tid then thread else s.threads other := by
  unfold setThread
  dsimp only
  split
  · rename_i here
    rw [here, Function.update_self]
  · rename_i elsewhere
    rw [Function.update_of_ne elsewhere]

/-- The rest of a callback, or of `AppendToMemTrace` the next call. Without the lock, which
the others need, a thread waits. -/
def resume (s : PinState) (tid : THREADID) : Callback → PinState × List PintoolEvent
  | .appendToMemTrace [] => (s.setThread tid .running, [])
  | .appendToMemTrace (call :: calls) =>
    let added := s.tool.append tid.toNat (Pintool.memoryCall call)
    ({ s with tool := added.2.1 }.setThread tid (.inCallback (.appendToMemTrace calls)), added.2.2)
  | .onThreadFini =>
    if s.tool.lockIsKept then (s, [])
    else ({ s with tool := s.tool.onThreadFini tid }.setThread tid .ended, [.finished tid])
  | .appendToDynamicTrace bblId numInst =>
    if s.tool.lockIsKept then (s, [])
    else
      let added := s.tool.appendToDynamicTrace tid bblId numInst
      ({ s with tool := added.1 }.setThread tid .running, added.2)
  | .onThreadEvent evType isMasterThreadEv =>
    if s.tool.lockIsKept then (s, [])
    else
      let added := s.tool.onThreadEvent tid evType isMasterThreadEv
      ({ s with tool := added.1 }.setThread tid .running, added.2)

/-- A callback that finds that its thread was not created returns. -/
def call (s : PinState) (tid : THREADID) (callback : Callback) : PinState × List PintoolEvent :=
  if s.tool.wasThreadCreated tid then
    (s.setThread tid (.inCallback callback), [.checked tid true])
  else
    match callback with
    | .onThreadFini => (s.setThread tid .ended, [.checked tid false, .finished tid])
    | _ => (s, [.checked tid false])

def step (s : PinState) : PinStep → PinState × List PintoolEvent
  | .onThreadStart tid dynamicOpens memoryOpens =>
    if s.tool.lockIsKept then (s, [])
    else
      ({ s with tool := s.tool.onThreadStart tid dynamicOpens memoryOpens }.setThread tid .running,
        [.started tid])
  | .call tid callback => s.call tid callback
  | .resume tid =>
    match s.threads tid with
    | .inCallback callback => s.resume tid callback
    | _ => (s, [])

/-- Pin starts a thread once, and calls its other callbacks one after the other between
its start and its end. -/
def Allowed (s : PinState) : PinStep → Prop
  | .onThreadStart tid _ _ => s.threads tid = .unborn
  | .call tid _ => s.threads tid = .running
  | .resume _ => True

end PinState

end Sinuca3.Source
