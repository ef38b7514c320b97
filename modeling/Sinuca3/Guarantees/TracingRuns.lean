import Sinuca3.Guarantees.FaithfulReplay
import Sinuca3.Guarantees.InstrumentedBlocks
import Sinuca3.Guarantees.ThreadCallbacks
import Sinuca3.Guarantees.TraceRoundTrip

/-!
# Runs of the trace generator

What the writers of each thread have been given after a run in which threads come in the
order of their ids: the blocks it entered and the accesses it made, however the callbacks
of the threads are interleaved, and thread events among them.
-/
namespace Sinuca3.Guarantees
open Sinuca3.Source Lib

/-- The blocks that a thread entered, with the numbers of their instructions. -/
def calledBlocks (tid : THREADID) (inputs : List ToolStep) : List (BitVec 32 × BitVec 32) :=
  inputs.filterMap fun
    | .call t (.appendToDynamicTrace bblId numInst) =>
      if t = tid then some (bblId, numInst) else none
    | _ => none

/-- The accesses that a thread made, an instruction at a time. -/
def calledAccesses (tid : THREADID) (inputs : List ToolStep) : List (List MemAccess) :=
  inputs.filterMap fun
    | .call t (.appendToMemTrace accessInfo) => if t = tid then some accessInfo else none
    | _ => none

/-- There are thread events in the program. -/
def Eventful (inputs : List ToolStep) : Prop :=
  ∃ tid evType isMasterThreadEv, .call tid (.onThreadEvent evType isMasterThreadEv) ∈ inputs

/-- The operations of an instruction whose mask is on. -/
def memOps (accessInfo : List MemAccess) : List MemoryTraceWriter.MemOp :=
  (accessInfo.filter MemAccess.maskOn).map fun access =>
    { address := access.memoryAddress, size := access.bytesAccessed, isLoadOp := access.isLoad }

/-- The record that a call of the memory writer adds. -/
def callRecord : MemoryCall → MemoryTraceRecord
  | .addNumberOfMemOperations totalOps => { address := totalOps.setWidth 64, recordType := 0 }
  | .addMemOp op => opRecord op

/-- The calls that the thread has yet to make to its memory writer. -/
def pendingCalls : PinThread → List MemoryCall
  | .inCallback (.appendToMemTrace calls) => calls
  | _ => []

/-- The block that it has yet to append. -/
def pendingBlocks : PinThread → List (BitVec 32 × BitVec 32)
  | .inCallback (.appendToDynamicTrace bblId numInst) => [(bblId, numInst)]
  | _ => []

/-- The instructions of some blocks, which the writer counts as numbers with a sign. -/
def instructionsOf : List (BitVec 32 × BitVec 32) → Int
  | [] => 0
  | block :: blocks => block.2.toInt + instructionsOf blocks

/-- Nothing but the counter of the header changes. -/
def OwnHeader (w : DynamicTraceWriter) : Prop :=
  w.header.traceVersion = 1 ∧ w.header.targetArch = 0

/-- A dynamic writer that was given the records of `blocks`, and maybe events. -/
structure DynamicTraced (events : Prop) (blocks : List (BitVec 32 × BitVec 32))
    (w : DynamicTraceWriter) : Prop where
  given : ∃ records, Given records (instructionsOf blocks) w ∧
    blockIds records = blocks.map (fun block => block.1.toNat) ∧
    ∀ r ∈ records, r.getRecordType = .basicBlockIdentifier ∨
      r.getRecordType = .threadEvent ∧ events
  header : OwnHeader w

/-- A memory writer that was given the records of some calls. -/
structure MemoryTraced (calls : List MemoryCall) (w : MemoryTraceWriter) : Prop where
  holds : w.Holds MemoryTraceRecord.codec (calls.map callRecord)
  header : w.header = MemoryTraceWriter.create.header

/-- The data of a thread in some state, of which `blocks` and `accesses` are known. -/
structure ThreadTraced (events : Prop) (blocks : List (BitVec 32 × BitVec 32))
    (accesses : List (List MemAccess)) (thread : PinThread) (d : Pintool.ThreadData) : Prop where
  dynamic : ∃ done, DynamicTraced events done d.dynamicTrace ∧ done ++ pendingBlocks thread = blocks
  memory : ∃ calls, MemoryTraced calls d.memoryTrace ∧
    (calls ++ pendingCalls thread).map callRecord =
      accesses.flatMap fun accessInfo => groupRecords (memOps accessInfo)

section Writers

variable {events : Prop}

theorem instructionsOf_append (blocks more : List (BitVec 32 × BitVec 32)) :
    instructionsOf (blocks ++ more) = instructionsOf blocks + instructionsOf more := by
  induction blocks with
  | nil => rw [List.nil_append, instructionsOf, Int.zero_add]
  | cons block blocks ih => rw [List.cons_append, instructionsOf, instructionsOf, ih, Int.add_assoc]

theorem blockIds_append (records more : List DynamicTraceRecord) :
    blockIds (records ++ more) = blockIds records ++ blockIds more := List.filterMap_append

theorem dynamicTraced_openFile :
    DynamicTraced events [] (TraceWriter.openFile DynamicTraceWriter.create) where
  given := ⟨[], ⟨TraceWriter.holds_openFile _ _, by decide⟩, rfl, by simp⟩
  header := ⟨rfl, rfl⟩

/-- A thread event is added, and the call does not fail. -/
theorem DynamicTraced.addThreadEvent {blocks : List (BitVec 32 × BitVec 32)}
    {w : DynamicTraceWriter} (before : DynamicTraced events blocks w) (eventful : events)
    (evType : BitVec 32) :
    (DynamicTraceWriter.addThreadEvent w evType).1 = false ∧
      DynamicTraced events blocks (DynamicTraceWriter.addThreadEvent w evType).2 := by
  obtain ⟨records, given, ids, known⟩ := before.given
  obtain ⟨w', step, _, header⟩ := given.holds.addRecord (.threadEvent evType)
  have after := call_given given (.addThreadEvent evType)
  have same : DynamicTraceWriter.addThreadEvent w evType = (false, w') := step
  have called : DynamicTraceWriter.call w (.addThreadEvent evType) = w' := congrArg Prod.snd same
  rw [called] at after
  simp only [appended, counted, Option.toList_some, Int.add_zero] at after
  rw [same]
  refine ⟨rfl, ⟨records ++ [.threadEvent evType], after, ?_, ?_⟩, ?_⟩
  · rw [blockIds_append, ids]
    exact List.append_nil _
  · intro r member
    rcases List.mem_append.mp member with old | new
    · exact known r old
    · cases List.mem_singleton.mp new
      exact .inr ⟨rfl, eventful⟩
  · rw [OwnHeader, header]
    exact before.header

/-- A block is added and its instructions are counted. -/
theorem DynamicTraced.addBasicBlockId {blocks : List (BitVec 32 × BitVec 32)}
    {w : DynamicTraceWriter} (before : DynamicTraced events blocks w) (bblId numInst : BitVec 32) :
    DynamicTraced events (blocks ++ [(bblId, numInst)])
      (DynamicTraceWriter.addBasicBlockId (w.incExecutedInstructions numInst) bblId).2 := by
  obtain ⟨records, given, ids, known⟩ := before.given
  have counted' := call_given given (.incExecutedInstructions numInst)
  have after := call_given counted' (.addBasicBlockId bblId)
  obtain ⟨w', step, _, header⟩ := counted'.holds.addRecord (.basicBlock bblId)
  have same : (DynamicTraceWriter.addBasicBlockId (w.incExecutedInstructions numInst) bblId).2 =
      w' := congrArg Prod.snd step
  have called : DynamicTraceWriter.call (DynamicTraceWriter.call w
      (.incExecutedInstructions numInst)) (.addBasicBlockId bblId) = w' := congrArg Prod.snd step
  rw [called] at after
  simp only [appended, counted, Option.toList_none, Option.toList_some, List.append_nil,
    Int.add_zero] at after
  have count : instructionsOf (blocks ++ [(bblId, numInst)]) =
      instructionsOf blocks + numInst.toInt := by
    rw [instructionsOf_append]
    simp [instructionsOf]
  rw [same]
  refine ⟨⟨records ++ [.basicBlock bblId], ?_, ?_, ?_⟩, ?_⟩
  · rw [count]
    exact after
  · rw [blockIds_append, ids, List.map_append]
    rfl
  · intro r member
    rcases List.mem_append.mp member with old | new
    · exact known r old
    · cases List.mem_singleton.mp new
      exact .inl rfl
  · rw [OwnHeader, header]
    exact before.header

theorem memoryTraced_openFile : MemoryTraced [] (TraceWriter.openFile MemoryTraceWriter.create) :=
  ⟨TraceWriter.holds_openFile _ _, rfl⟩

theorem MemoryTraced.memoryCall {calls : List MemoryCall} {d : Pintool.ThreadData}
    (before : MemoryTraced calls d.memoryTrace) (call : MemoryCall) :
    MemoryTraced (calls ++ [call]) (Pintool.memoryCall call d).2.memoryTrace := by
  obtain ⟨w', step, holds, header⟩ := before.holds.addRecord (callRecord call)
  have added : (Pintool.memoryCall call d).2.memoryTrace = w' := by
    cases call <;> exact congrArg Prod.snd step
  rw [added]
  refine ⟨?_, header.trans before.header⟩
  rw [List.map_append]
  exact holds

/-- The calls of `AppendToMemTrace` add the group of the instruction. -/
theorem appendToMemTrace_records (accessInfo : List MemAccess) :
    (pendingCalls (.inCallback (appendToMemTrace accessInfo))).map callRecord =
      groupRecords (memOps accessInfo) := by
  simp [pendingCalls, appendToMemTrace, groupRecords, memOps, callRecord, Function.comp_def]

end Writers

section Calls

/-- Only calls of callbacks count. -/
theorem called_of_quiet (tid : THREADID) (inputs : List ToolStep) {step : ToolStep}
    (quiet : ∀ u call, step ≠ .call u call) :
    calledBlocks tid (inputs ++ [step]) = calledBlocks tid inputs ∧
      calledAccesses tid (inputs ++ [step]) = calledAccesses tid inputs := by
  cases step with
  | call u call => exact absurd rfl (quiet u call)
  | _ => simp [calledBlocks, calledAccesses]

/-- A call counts for its thread, which has then yet to make it. -/
theorem called_of_call (tid : THREADID) (inputs : List ToolStep) (u : THREADID)
    (call : AnalysisCall) :
    calledBlocks tid (inputs ++ [.call u call]) =
        calledBlocks tid inputs ++
          (if u = tid then pendingBlocks (.inCallback call.callback) else []) ∧
      (calledAccesses tid (inputs ++ [.call u call])).flatMap
          (fun accessInfo => groupRecords (memOps accessInfo)) =
        (calledAccesses tid inputs).flatMap (fun accessInfo => groupRecords (memOps accessInfo)) ++
          if u = tid then (pendingCalls (.inCallback call.callback)).map callRecord else [] := by
  simp only [calledBlocks, calledAccesses, List.filterMap_append, List.flatMap_append,
    List.append_cancel_left_eq]
  cases call with
  | appendToDynamicTrace bblId numInst =>
    by_cases own : u = tid <;> simp [own, AnalysisCall.callback, pendingBlocks, pendingCalls]
  | appendToMemTrace accessInfo =>
    have records := appendToMemTrace_records accessInfo
    by_cases own : u = tid
    · simp [own, AnalysisCall.callback, records]
      rfl
    · simp [own]
  | onThreadEvent => simp [AnalysisCall.callback, pendingBlocks, pendingCalls]
  | onThreadFini => simp [AnalysisCall.callback, pendingBlocks, pendingCalls]

end Calls

section Appends

/-- A call of a writer changes the data at its index. -/
theorem append_family {t : Pintool} {i : Nat}
    {write : Pintool.ThreadData → Bool × Pintool.ThreadData}
    {P Q : Nat → Pintool.ThreadData → Prop} {tid : THREADID}
    (there : (registry t)[i]? = some (tid, false))
    (all : ∀ j d, t.threadDataVec[j]? = some d → P j d)
    (here : ∀ d, P i d → Q i (write d).2) (others : ∀ j d, j ≠ i → P j d → Q j d) :
    (∀ j d, (t.append i write).2.1.threadDataVec[j]? = some d → Q j d) ∧
      ∃ d, P i d ∧ (t.append i write).1 = (write d).1 := by
  rw [registry, List.getElem?_map, Option.map_eq_some_iff] at there
  obtain ⟨data, found, entry⟩ := there
  have deleted : data.deleted = false := congrArg Prod.snd entry
  have before := all i data found
  have result : t.append i write = ((write data).1,
      { t with threadDataVec := t.threadDataVec.set i (write data).2 },
      [.appended (BitVec.ofNat 32 i) (some data.openedFor)]) := by
    unfold Pintool.append
    rw [found]
    dsimp only
    rw [if_neg (by rw [deleted]; decide)]
  rw [result]
  refine ⟨fun j d present => ?_, data, before, rfl⟩
  dsimp only at present
  rw [List.getElem?_set] at present
  split at present
  · rename_i same
    subst same
    split at present
    · cases present
      exact here data before
    · cases present
  · rename_i different
    exact others j d (Ne.symm different) (all j d present)

/-- The loop over all threads, if no call of a writer fails. -/
theorem broadcast_family {P : Nat → Pintool.ThreadData → Prop} (evType : BitVec 32)
    (stops : Bool) (is : List Nat) (t : Pintool)
    (there : ∀ i ∈ is, ∃ tid, (registry t)[i]? = some (tid, false))
    (all : ∀ j d, t.threadDataVec[j]? = some d → P j d)
    (here : ∀ i d, P i d → (Pintool.addThreadEvent evType d).1 = false ∧
      P i (Pintool.addThreadEvent evType d).2) :
    (t.broadcast evType stops is).1 = false ∧
      ∀ j d, (t.broadcast evType stops is).2.1.threadDataVec[j]? = some d → P j d := by
  induction is generalizing t with
  | nil => exact ⟨rfl, all⟩
  | cons i is ih =>
    obtain ⟨tid, entry⟩ := there i (List.mem_cons_self ..)
    obtain ⟨family, d, before, failed⟩ := append_family (Q := P) entry all
      (fun d before => (here i d before).2) fun _ _ _ before => before
    have succeeds : (t.append i (Pintool.addThreadEvent evType)).1 = false :=
      failed.trans (here i d before).1
    have same := (append_appends t i _ (addThreadEvent_keeps evType) entry).same
    have rest := ih (t.append i (Pintool.addThreadEvent evType)).2.1 (fun j member => by
      rw [same]
      exact there j (List.mem_cons_of_mem i member)) family
    rw [Pintool.broadcast]
    dsimp only
    rw [if_neg (by simp [succeeds])]
    exact rest

/-- What no call of a writer of a thread touches. -/
structure SameShared (t t' : Pintool) : Prop where
  staticTrace : t'.staticTrace = t.staticTrace
  lockIsKept : t'.lockIsKept = t.lockIsKept
  length : t'.threadDataVec.length = t.threadDataVec.length

theorem SameShared.trans {t t' t'' : Pintool} (first : SameShared t t')
    (second : SameShared t' t'') : SameShared t t'' :=
  ⟨second.staticTrace.trans first.staticTrace, second.lockIsKept.trans first.lockIsKept,
    second.length.trans first.length⟩

theorem append_shared (t : Pintool) (i : Nat)
    (write : Pintool.ThreadData → Bool × Pintool.ThreadData) :
    SameShared t (t.append i write).2.1 := by
  unfold Pintool.append
  split
  · exact ⟨rfl, rfl, rfl⟩
  · split
    · exact ⟨rfl, rfl, rfl⟩
    · exact ⟨rfl, rfl, List.length_set ..⟩

theorem broadcast_shared (evType : BitVec 32) (stops : Bool) (is : List Nat) (t : Pintool) :
    SameShared t (t.broadcast evType stops is).2.1 := by
  induction is generalizing t with
  | nil => exact ⟨rfl, rfl, rfl⟩
  | cons i is ih =>
    have first := append_shared t i (Pintool.addThreadEvent evType)
    rw [Pintool.broadcast]
    dsimp only
    split
    · exact first
    · exact first.trans (ih _)

end Appends

/-- The callback that the thread is in does not find that the limit is reached. -/
def WithinLimit (s : PinState) (tid : THREADID) : Prop :=
  ∀ bblId numInst, s.threads tid = .inCallback (.appendToDynamicTrace bblId numInst) →
    s.tool.reachedMaximum = false

/-- Threads come in order and their files open, no loop over all threads comes to one that
has ended, the limit is not reached, and the size of a block fits in its record. -/
def WellBehaved (t : Tool) : ToolStep → Prop
  | .onThreadStart tid dynamicOpens memoryOpens =>
    t.pin.Allowed (.onThreadStart tid dynamicOpens memoryOpens) ∧
      Orderly t.pin (.onThreadStart tid dynamicOpens memoryOpens) ∧
      dynamicOpens = true ∧ memoryOpens = true
  | .onTrace _ trace => ∀ bbl ∈ trace.bbls, bbl.instructions.length < 65536
  | .call tid call => t.pin.Allowed (.call tid call.callback)
  | .resume tid => Orderly t.pin (.resume tid) ∧ WithinLimit t.pin tid
  | _ => True

/-- What is known of the data of a thread of the program. -/
abbrev TracedFor (inputs : List ToolStep) (tid : THREADID) :
    PinThread → Pintool.ThreadData → Prop :=
  ThreadTraced (Eventful inputs) (calledBlocks tid inputs) (calledAccesses tid inputs)

/-- What is known of the data at each index, for threads in some states. -/
def DataTraced (inputs : List ToolStep) (threads : THREADID → PinThread)
    (data : List Pintool.ThreadData) : Prop :=
  ∀ (i : Nat) d, data[i]? = some d →
    TracedFor inputs (BitVec.ofNat 32 i) (threads (BitVec.ofNat 32 i)) d

/-- The tool after some steps. -/
structure Tracing (t : Tool) (inputs : List ToolStep) (log : List PintoolEvent) : Prop where
  ordered : Ordered t.pin log
  released : t.pin.tool.lockIsKept = false
  data : DataTraced inputs t.pin.threads t.pin.tool.threadDataVec
  unborn : ∀ tid, t.pin.threads tid = .unborn →
    calledBlocks tid inputs = [] ∧ calledAccesses tid inputs = []
  events : ∀ tid evType isMasterThreadEv,
    t.pin.threads tid = .inCallback (.onThreadEvent evType isMasterThreadEv) → Eventful inputs
  static : StaticTraced t.intrinsics t.codeCache t.pin.tool.threadDataVec.length
    t.pin.tool.staticTrace

section Steps

variable {t : Tool} {inputs : List ToolStep} {log : List PintoolEvent}

/-- The index of the data of another thread. -/
theorem Ordered.other_index {s : PinState} (ordered : Ordered s log) {j : Nat}
    {d : Pintool.ThreadData} (present : s.tool.threadDataVec[j]? = some d) {tid : THREADID}
    (other : j ≠ tid.toNat) : BitVec.ofNat 32 j ≠ tid := by
  have inside := (List.getElem?_eq_some_iff.mp present).1
  have count := ordered.length_le
  rintro rfl
  rw [BitVec.toNat_ofNat, Nat.mod_eq_of_lt (by omega)] at other
  exact other rfl

/-- A thread that goes from one state to another with nothing more pending. -/
theorem ThreadTraced.goOn {events : Prop} {blocks : List (BitVec 32 × BitVec 32)}
    {accesses : List (List MemAccess)} {thread thread' : PinThread} {d : Pintool.ThreadData}
    (before : ThreadTraced events blocks accesses thread d)
    (sameBlocks : pendingBlocks thread' = pendingBlocks thread)
    (sameCalls : pendingCalls thread' = pendingCalls thread) :
    ThreadTraced events blocks accesses thread' d :=
  ⟨by rw [sameBlocks]; exact before.dynamic, by rw [sameCalls]; exact before.memory⟩

theorem ThreadTraced.addThreadEvent {events : Prop} {blocks : List (BitVec 32 × BitVec 32)}
    {accesses : List (List MemAccess)} {thread : PinThread} {d : Pintool.ThreadData}
    (before : ThreadTraced events blocks accesses thread d) (eventful : events)
    (evType : BitVec 32) :
    (Pintool.addThreadEvent evType d).1 = false ∧
      ThreadTraced events blocks accesses thread (Pintool.addThreadEvent evType d).2 := by
  obtain ⟨done, traced, all⟩ := before.dynamic
  obtain ⟨succeeds, after⟩ := traced.addThreadEvent eventful evType
  exact ⟨succeeds, ⟨⟨done, after, all⟩, before.memory⟩⟩

theorem ThreadTraced.later {events events' : Prop} {blocks : List (BitVec 32 × BitVec 32)}
    {accesses : List (List MemAccess)} {thread : PinThread} {d : Pintool.ThreadData}
    (before : ThreadTraced events blocks accesses thread d) (later : events → events') :
    ThreadTraced events' blocks accesses thread d := by
  obtain ⟨done, traced, all⟩ := before.dynamic
  obtain ⟨records, given, ids, known⟩ := traced.given
  exact ⟨⟨done, ⟨⟨records, given, ids, fun r member => (known r member).imp_right
    (And.imp_right later)⟩, traced.header⟩, all⟩, before.memory⟩

theorem eventful_append (before : Eventful inputs) (more : List ToolStep) :
    Eventful (inputs ++ more) := by
  obtain ⟨tid, evType, isMasterThreadEv, member⟩ := before
  exact ⟨tid, evType, isMasterThreadEv, List.mem_append_left _ member⟩

/-- The data once the calls of a callback have changed that of its thread. -/
theorem DataTraced.setThread {s : PinState} {data : List Pintool.ThreadData} {tid : THREADID}
    {thread : PinThread}
    (family : ∀ j d, data[j]? = some d →
      TracedFor inputs (BitVec.ofNat 32 j)
      (if BitVec.ofNat 32 j = tid then thread else s.threads (BitVec.ofNat 32 j)) d) :
    DataTraced inputs (s.setThread tid thread).threads data := by
  intro j d present
  rw [PinState.setThread_threads]
  exact family j d present

/-- A callback goes on with one call of a writer of its own thread. -/
theorem Tracing.append (tracing : Tracing t inputs log) {tid : THREADID} (live : Live log tid)
    {tool : Pintool} (same : tool.threadDataVec = t.pin.tool.threadDataVec) {thread : PinThread}
    (write : Pintool.ThreadData → Bool × Pintool.ThreadData)
    (writes : ∀ d, TracedFor inputs tid (t.pin.threads tid) d →
      TracedFor inputs tid thread (write d).2) :
    DataTraced inputs (t.pin.setThread tid thread).threads
        (tool.append tid.toNat write).2.1.threadDataVec ∧
      ∃ d, TracedFor inputs tid (t.pin.threads tid) d ∧
        (tool.append tid.toNat write).1 = (write d).1 := by
  have there := tracing.ordered.there live
  rw [registry, ← same] at there
  have own : BitVec.ofNat 32 tid.toNat = tid := by rw [BitVec.ofNat_toNat, BitVec.setWidth_eq]
  have here : ∀ d, t.pin.tool.threadDataVec[tid.toNat]? = some d →
      TracedFor inputs tid (t.pin.threads tid) d := by
    intro d present
    have before := tracing.data tid.toNat d present
    rwa [own] at before
  obtain ⟨family, d, present, result⟩ := append_family there
    (P := fun j d => t.pin.tool.threadDataVec[j]? = some d)
    (Q := fun j d => TracedFor inputs (BitVec.ofNat 32 j)
      (if BitVec.ofNat 32 j = tid then thread else t.pin.threads (BitVec.ofNat 32 j)) d)
    (fun j d present => same ▸ present)
    (fun d present => by
      rw [own, if_pos rfl]
      exact writes d (here d present))
    fun j d other present => by
      rw [if_neg (tracing.ordered.other_index present other)]
      exact tracing.data j d present
  exact ⟨DataTraced.setThread family, d, here d present, result⟩

/-- A call of a callback. -/
theorem Tracing.call (tracing : Tracing t inputs log) {tid : THREADID} {call : AnalysisCall}
    (allowed : t.pin.Allowed (.call tid call.callback)) :
    Tracing (t.step (.call tid call)).1 (inputs ++ [.call tid call])
      (log ++ (t.step (.call tid call)).2) := by
  have running : t.pin.threads tid = .running := allowed
  have kept := (tracing.ordered.step (.call tid call.callback) allowed trivial).ordered
  have registered := (tracing.ordered.registered tid).mp (by rw [running]; simp)
  have created : t.pin.tool.wasThreadCreated tid = true :=
    (tracing.ordered.wasThreadCreated_iff tid).mpr (Nat.ne_of_lt registered)
  have called : t.pin.step (.call tid call.callback) =
      (t.pin.setThread tid (.inCallback call.callback), [.checked tid true]) := by
    rw [PinState.step]
    unfold PinState.call
    rw [if_pos created]
  rw [Tool.step, Tool.pinStep]
  rw [called] at kept ⊢
  refine ⟨kept, tracing.released, ?_, fun other none => ?_,
    fun other evType isMasterThreadEv calling => ?_, tracing.static⟩
  · refine DataTraced.setThread fun j d present => ?_
    have before := (tracing.data j d present).later
      fun eventful => eventful_append eventful [.call tid call]
    obtain ⟨blocks, accesses⟩ := called_of_call (BitVec.ofNat 32 j) inputs tid call
    by_cases own : BitVec.ofNat 32 j = tid
    · rw [own, running] at before
      rw [own, if_pos rfl] at blocks accesses
      rw [own, if_pos rfl]
      obtain ⟨done, traced, all⟩ := before.dynamic
      obtain ⟨calls, given, records⟩ := before.memory
      refine ⟨⟨done, traced, ?_⟩, calls, given, ?_⟩
      · rw [blocks, ← all]
        simp [pendingBlocks]
      · rw [accesses, ← records]
        simp [pendingCalls]
    · rw [if_neg (Ne.symm own), List.append_nil] at blocks accesses
      rw [TracedFor, if_neg own, blocks]
      exact ⟨before.dynamic, by rw [accesses]; exact before.memory⟩
  · have different : tid ≠ other := by
      rintro rfl
      rw [PinState.setThread_threads, if_pos rfl] at none
      cases none
    rw [PinState.setThread_threads, if_neg (Ne.symm different)] at none
    obtain ⟨blocks, accesses⟩ := tracing.unborn other none
    have quiet : ∀ c : AnalysisCall, calledBlocks other [.call tid c] = [] ∧
        calledAccesses other [.call tid c] = [] := by
      intro c
      cases c <;> simp [calledBlocks, calledAccesses, different]
    constructor
    · rw [calledBlocks, List.filterMap_append]
      exact (congrArg (· ++ _) blocks).trans (quiet call).1
    · rw [calledAccesses, List.filterMap_append]
      exact (congrArg (· ++ _) accesses).trans (quiet call).2
  · rw [PinState.setThread_threads] at calling
    split at calling
    · cases call with
      | onThreadEvent evType isMasterThreadEv =>
        exact ⟨tid, evType, isMasterThreadEv, List.mem_append_right _ (List.mem_singleton.mpr rfl)⟩
      | _ => cases calling
    · exact eventful_append (tracing.events other evType isMasterThreadEv calling) _

/-- A thread that has started and has no event to add. -/
def Settled (thread : PinThread) : Prop :=
  thread ≠ .unborn ∧ ∀ evType isMasterThreadEv,
    thread ≠ .inCallback (.onThreadEvent evType isMasterThreadEv)

/-- A step that is no call of a callback. -/
theorem Tracing.quiet (tracing : Tracing t inputs log) {step : ToolStep}
    (quiet : ∀ u call, step ≠ .call u call) {t' : Tool} {events : List PintoolEvent}
    (ordered : Ordered t'.pin (log ++ events)) (released : t'.pin.tool.lockIsKept = false)
    (data : DataTraced inputs t'.pin.threads t'.pin.tool.threadDataVec)
    (states : ∀ tid, t'.pin.threads tid = t.pin.threads tid ∨ Settled (t'.pin.threads tid))
    (static : StaticTraced t'.intrinsics t'.codeCache t'.pin.tool.threadDataVec.length
      t'.pin.tool.staticTrace) :
    Tracing t' (inputs ++ [step]) (log ++ events) where
  ordered := ordered
  released := released
  data := by
    intro i d present
    obtain ⟨blocks, accesses⟩ := called_of_quiet (BitVec.ofNat 32 i) inputs quiet
    rw [TracedFor, blocks, accesses]
    exact (data i d present).later fun eventful => eventful_append eventful _
  unborn := by
    intro tid none
    obtain ⟨blocks, accesses⟩ := called_of_quiet tid inputs quiet
    rw [blocks, accesses]
    rcases states tid with same | settled
    · exact tracing.unborn tid (same.symm.trans none)
    · exact absurd none settled.1
  events := by
    intro tid evType isMasterThreadEv calling
    rcases states tid with same | settled
    · exact eventful_append (tracing.events tid evType isMasterThreadEv (same.symm.trans calling)) _
    · exact absurd calling (settled.2 evType isMasterThreadEv)
  static := static

/-- The rest of a callback. -/
theorem Tracing.resume (tracing : Tracing t inputs log) {tid : THREADID} {callback : Callback}
    (inside : t.pin.threads tid = .inCallback callback) (orderly : Orderly t.pin (.resume tid))
    (within : WithinLimit t.pin tid) :
    let next := t.pin.resume tid callback
    SameShared t.pin.tool next.1.tool ∧
      (∃ thread, Settled thread ∧
        next.1.threads = (t.pin.setThread tid thread).threads) ∧
      DataTraced inputs next.1.threads next.1.tool.threadDataVec := by
  have live : Live log tid := by
    rw [tracing.ordered.live, inside]
    exact ⟨by simp, by simp⟩
  have released := tracing.released
  -- Where nothing is pending before or after, the data is as it was.
  have goesOn : ∀ (thread : PinThread) (data : List Pintool.ThreadData),
      pendingBlocks thread = pendingBlocks (.inCallback callback) →
      pendingCalls thread = pendingCalls (.inCallback callback) →
      (∀ (j : Nat) d, data[j]? = some d → ∃ d', t.pin.tool.threadDataVec[j]? = some d' ∧
        d.dynamicTrace = d'.dynamicTrace ∧ d.memoryTrace = d'.memoryTrace) →
      DataTraced inputs (t.pin.setThread tid thread).threads data := by
    intro thread data sameBlocks sameCalls same
    refine DataTraced.setThread fun j d present => ?_
    obtain ⟨d', present', dynamic, memory⟩ := same j d present
    have before := tracing.data j d' present'
    have after : TracedFor inputs (BitVec.ofNat 32 j) (t.pin.threads (BitVec.ofNat 32 j)) d :=
      ⟨by rw [dynamic]; exact before.dynamic, by rw [memory]; exact before.memory⟩
    split
    · rename_i own
      rw [own, inside] at after
      rw [own]
      exact after.goOn sameBlocks sameCalls
    · exact after
  cases callback with
  | appendToMemTrace calls =>
    cases calls with
    | nil =>
      exact ⟨⟨rfl, rfl, rfl⟩, ⟨.running, by simp [Settled], rfl⟩,
        goesOn .running _ rfl rfl fun j d present => ⟨d, present, rfl, rfl⟩⟩
    | cons call calls =>
      refine ⟨append_shared t.pin.tool tid.toNat (Pintool.memoryCall call),
        ⟨.inCallback (.appendToMemTrace calls), by simp [Settled], rfl⟩, ?_⟩
      refine (tracing.append live rfl (Pintool.memoryCall call) fun d before => ?_).1
      rw [inside] at before
      obtain ⟨given, traced, records⟩ := before.memory
      refine ⟨before.dynamic, given ++ [call], traced.memoryCall call, ?_⟩
      rw [← records, List.append_assoc]
      rfl
  | onThreadFini =>
    rw [PinState.resume, if_neg (by simp [released])]
    refine ⟨⟨rfl, rfl, List.length_modify ..⟩, ⟨.ended, by simp [Settled], rfl⟩,
      goesOn .ended _ rfl rfl ?_⟩
    intro j d present
    change (t.pin.tool.threadDataVec.modify tid.toNat _)[j]? = some d at present
    rw [List.getElem?_modify] at present
    obtain ⟨d', present', rfl⟩ := Option.map_eq_some_iff.mp present
    refine ⟨d', present', ?_⟩
    split <;> exact ⟨rfl, rfl⟩
  | appendToDynamicTrace bblId numInst =>
    rw [PinState.resume, if_neg (by simp [released]), Pintool.appendToDynamicTrace,
      if_neg (by simp [within bblId numInst inside])]
    dsimp only
    have shared := append_shared { t.pin.tool with
      numberOfExecInst := t.pin.tool.numberOfExecInst + numInst.setWidth 64 } tid.toNat
      (Pintool.addBasicBlockId bblId numInst)
    have same : { t.pin.tool with numberOfExecInst :=
        t.pin.tool.numberOfExecInst + numInst.setWidth 64 }.threadDataVec =
        t.pin.tool.threadDataVec := rfl
    refine ⟨⟨shared.staticTrace, shared.lockIsKept, shared.length⟩,
      ⟨.running, by simp [Settled], rfl⟩, ?_⟩
    refine (tracing.append live same (Pintool.addBasicBlockId bblId numInst) fun d before => ?_).1
    rw [inside] at before
    obtain ⟨done, traced, blocks⟩ := before.dynamic
    refine ⟨⟨done ++ [(bblId, numInst)], traced.addBasicBlockId bblId numInst, ?_⟩, before.memory⟩
    rw [← blocks]
    exact List.append_nil _
  | onThreadEvent evType isMasterThreadEv =>
    have eventful := tracing.events tid evType isMasterThreadEv inside
    have writes : ∀ d, TracedFor inputs tid (t.pin.threads tid) d →
        TracedFor inputs tid .running (Pintool.addThreadEvent evType d).2 := by
      intro d before
      rw [inside] at before
      exact (before.addThreadEvent eventful evType).2.goOn rfl rfl
    obtain ⟨data, d, before, result⟩ :=
      tracing.append live rfl (Pintool.addThreadEvent evType) writes
    have succeeds := result.trans (before.addThreadEvent eventful evType).1
    have own := append_shared t.pin.tool tid.toNat (Pintool.addThreadEvent evType)
    rw [PinState.resume, if_neg (by simp [released]), Pintool.onThreadEvent]
    dsimp only
    rw [if_neg (by simp [succeeds])]
    cases master : isMasterThreadEv with
    | false =>
      exact ⟨own, ⟨.running, by simp [Settled], rfl⟩, data⟩
    | true =>
      have there := tracing.ordered.there live
      have undeleted :=
        orderly (.onThreadEvent evType isMasterThreadEv) 1 inside (by rw [master]; rfl)
      have same := (append_appends t.pin.tool tid.toNat _ (addThreadEvent_keeps evType) there).same
      have indices : (t.pin.tool.append tid.toNat (Pintool.addThreadEvent evType)).2.1.indices 1 =
          t.pin.tool.indices 1 := by
        rw [Pintool.indices, Pintool.indices, ← registry_length, same, registry_length]
      obtain ⟨succeeds', family⟩ := broadcast_family evType true
        ((t.pin.tool.append tid.toNat (Pintool.addThreadEvent evType)).2.1.indices 1)
        (t.pin.tool.append tid.toNat (Pintool.addThreadEvent evType)).2.1
        (by rw [indices, same]; exact indices_there undeleted) data
        fun i d before => before.addThreadEvent eventful evType
      have shared := own.trans (broadcast_shared evType true
        ((t.pin.tool.append tid.toNat (Pintool.addThreadEvent evType)).2.1.indices 1) _)
      rw [if_pos rfl]
      refine ⟨⟨shared.staticTrace, ?_, shared.length⟩, ⟨.running, by simp [Settled], rfl⟩, family⟩
      dsimp only
      rw [succeeds', Bool.false_or]
      exact shared.lockIsKept

/-- A thread starts with files of its own. -/
theorem Tracing.onThreadStart (tracing : Tracing t inputs log) {tid : THREADID}
    (allowed : t.pin.Allowed (.onThreadStart tid true true))
    (orderly : Orderly t.pin (.onThreadStart tid true true)) :
    Tracing (t.step (.onThreadStart tid true true)).1 (inputs ++ [.onThreadStart tid true true])
      (log ++ (t.step (.onThreadStart tid true true)).2) := by
  have unborn : t.pin.threads tid = .unborn := allowed
  have next : t.pin.tool.threadDataVec.length = tid.toNat := orderly
  have kept := (tracing.ordered.step (.onThreadStart tid true true) allowed orderly).ordered
  have started : t.pin.step (.onThreadStart tid true true) =
      ({ t.pin with tool := t.pin.tool.onThreadStart tid true true }.setThread tid .running,
        [.started tid]) := by
    rw [PinState.step, if_neg (by simp [tracing.released])]
  rw [Tool.step, Tool.pinStep, if_neg (by simp [tracing.released])]
  rw [started] at kept ⊢
  refine tracing.quiet (by simp) kept tracing.released ?_ ?_ ?_
  · refine DataTraced.setThread fun j d present => ?_
    change (t.pin.tool.threadDataVec ++ [_])[j]? = some d at present
    rw [List.getElem?_append] at present
    split at present
    · have other : BitVec.ofNat 32 j ≠ tid :=
        tracing.ordered.other_index present (by omega)
      rw [if_neg other]
      exact tracing.data j d present
    · rw [List.getElem?_singleton] at present
      split at present
      · have own : BitVec.ofNat 32 j = tid := by
          have last : j = tid.toNat := by omega
          rw [last, BitVec.ofNat_toNat, BitVec.setWidth_eq]
        obtain ⟨blocks, accesses⟩ := tracing.unborn tid unborn
        cases present
        rw [TracedFor, own, if_pos rfl, blocks, accesses]
        exact ⟨⟨[], dynamicTraced_openFile, rfl⟩, [], memoryTraced_openFile, rfl⟩
      · cases present
  · intro other
    rw [PinState.setThread_threads]
    split
    · exact .inr (by simp [Settled])
    · exact .inl rfl
  · have more : (t.pin.tool.onThreadStart tid true true).threadDataVec.length =
        t.pin.tool.threadDataVec.length + 1 := List.length_append
    change StaticTraced t.intrinsics t.codeCache
      (t.pin.tool.onThreadStart tid true true).threadDataVec.length _
    rw [more]
    exact tracing.static.incThreadCount

/-- What one step of the tool keeps. -/
theorem Tracing.step (tracing : Tracing t inputs log) (step : ToolStep)
    (behaves : WellBehaved t step) :
    Tracing (t.step step).1 (inputs ++ [step]) (log ++ (t.step step).2) := by
  -- The switches change only what the instrumentation looks at.
  have switched : ∀ t' : Tool, (∀ u call, step ≠ .call u call) → t'.pin = t.pin →
      t'.intrinsics = t.intrinsics → t'.codeCache = t.codeCache →
      Tracing t' (inputs ++ [step]) (log ++ []) := by
    intro t' quiet pin intrinsics cache
    refine tracing.quiet quiet ?_ ?_ ?_ ?_ ?_
    · rw [pin, List.append_nil]
      exact tracing.ordered
    · rw [pin]
      exact tracing.released
    · rw [pin]
      exact tracing.data
    · rw [pin]
      exact fun _ => .inl rfl
    · rw [pin, intrinsics, cache]
      exact tracing.static
  cases step with
  | onThreadStart tid dynamicOpens memoryOpens =>
    obtain ⟨allowed, orderly, rfl, rfl⟩ := behaves
    exact tracing.onThreadStart allowed orderly
  | onTrace tid trace =>
    rw [Tool.step, Tool.onTrace]
    split
    · refine tracing.quiet (by simp) ?_ tracing.released tracing.data (fun _ => .inl rfl) ?_
      · rw [List.append_nil]
        exact ⟨tracing.ordered.opened, tracing.ordered.registered, tracing.ordered.started,
          tracing.ordered.finished⟩
      · exact tracing.static.instrumentBbls trace.bbls behaves
    · exact switched t (by simp) rfl rfl rfl
  | call tid call => exact tracing.call behaves
  | resume tid =>
    obtain ⟨orderly, within⟩ := behaves
    have kept := (tracing.ordered.step (.resume tid) trivial orderly).ordered
    rw [Tool.step, Tool.pinStep]
    rw [PinState.step] at kept ⊢
    cases state : t.pin.threads tid with
    | inCallback callback =>
      rw [state] at kept
      obtain ⟨shared, ⟨thread, settled, threads⟩, data⟩ := tracing.resume state orderly within
      refine tracing.quiet (by simp) kept (shared.lockIsKept.trans tracing.released) data ?_ ?_
      · intro other
        dsimp only
        rw [threads, PinState.setThread_threads]
        split
        · exact .inr settled
        · exact .inl rfl
      · dsimp only
        rw [shared.length, shared.staticTrace]
        exact tracing.static
    | _ =>
      rw [state] at kept
      exact tracing.quiet (by simp) kept tracing.released tracing.data (fun _ => .inl rfl)
        tracing.static
  | initInstrumentation =>
    rw [Tool.step, Tool.initInstrumentation]
    split
    · exact switched t (by simp) rfl rfl rfl
    · exact switched _ (by simp) rfl rfl rfl
  | stopInstrumentation =>
    rw [Tool.step, Tool.stopInstrumentation]
    split
    · exact switched t (by simp) rfl rfl rfl
    · exact switched _ (by simp) rfl rfl rfl
  | resumeInstrumentationInThread tid =>
    rw [Tool.step, Tool.setThreadInstrumentating]
    split
    · exact switched _ (by simp) rfl rfl rfl
    · exact switched t (by simp) rfl rfl rfl
  | stopInstrumentationInThread tid =>
    rw [Tool.step, Tool.setThreadInstrumentating]
    split
    · exact switched _ (by simp) rfl rfl rfl
    · exact switched t (by simp) rfl rfl rfl

end Steps

theorem tracing_initial (intrinsics : List IntrinsicInfo) (knobForceInstrumentation : Bool)
    (knobNumberOfInstructions : BitVec 32) :
    Tracing (Tool.initial intrinsics knobForceInstrumentation knobNumberOfInstructions) [] [] where
  ordered := ⟨fun i entry there => by simp [registry, Tool.initial, PinState.initial] at there,
    fun tid => by simp [Tool.initial, PinState.initial],
    fun tid => by simp [Tool.initial, PinState.initial],
    fun tid => by simp [Tool.initial, PinState.initial]⟩
  released := rfl
  data := fun i d present => by simp [Tool.initial, PinState.initial] at present
  unborn := fun _ _ => ⟨rfl, rfl⟩
  events := fun _ _ _ calling => by simp [Tool.initial, PinState.initial] at calling
  static := staticTraced_openFile intrinsics

/-- The tool after some steps. -/
def traceProgram (intrinsics : List IntrinsicInfo) (knobForceInstrumentation : Bool)
    (knobNumberOfInstructions : BitVec 32) (inputs : List ToolStep) : Tool × List PintoolEvent :=
  Machine.run Tool.step
    (Tool.initial intrinsics knobForceInstrumentation knobNumberOfInstructions) inputs

/-- The steps of a program that behaves. -/
def Behaves (intrinsics : List IntrinsicInfo) (knobForceInstrumentation : Bool)
    (knobNumberOfInstructions : BitVec 32) (inputs : List ToolStep) : Prop :=
  Machine.Meets Tool.step WellBehaved
    (Tool.initial intrinsics knobForceInstrumentation knobNumberOfInstructions) inputs

section Programs

variable {intrinsics : List IntrinsicInfo} {knobForceInstrumentation : Bool}
  {knobNumberOfInstructions : BitVec 32} {inputs : List ToolStep}

theorem tracing_traceProgram
    (behaves : Behaves intrinsics knobForceInstrumentation knobNumberOfInstructions inputs) :
    Tracing (traceProgram intrinsics knobForceInstrumentation knobNumberOfInstructions inputs).1
      inputs
      (traceProgram intrinsics knobForceInstrumentation knobNumberOfInstructions inputs).2 :=
  Machine.run_induction_of_meets Tool.step _ (P := fun t is log => Tracing t is log)
    (tracing_initial intrinsics knobForceInstrumentation knobNumberOfInstructions)
    (fun _ _ _ step before here => before.step step here) inputs behaves

theorem step_intrinsics (t : Tool) (step : ToolStep) :
    (t.step step).1.intrinsics = t.intrinsics := by
  cases step with
  | onThreadStart tid dynamicOpens memoryOpens =>
    rw [Tool.step]
    dsimp only
    split <;> rfl
  | onTrace tid trace =>
    rw [Tool.step, Tool.onTrace]
    split <;> rfl
  | initInstrumentation =>
    rw [Tool.step, Tool.initInstrumentation]
    split <;> rfl
  | stopInstrumentation =>
    rw [Tool.step, Tool.stopInstrumentation]
    split <;> rfl
  | resumeInstrumentationInThread tid =>
    rw [Tool.step, Tool.setThreadInstrumentating]
    split <;> rfl
  | stopInstrumentationInThread tid =>
    rw [Tool.step, Tool.setThreadInstrumentating]
    split <;> rfl
  | _ => rfl

theorem intrinsics_traceProgram :
    (traceProgram intrinsics knobForceInstrumentation knobNumberOfInstructions inputs).1.intrinsics =
      intrinsics :=
  Machine.run_induction Tool.step (P := fun t _ _ => t.intrinsics = intrinsics) rfl
    (fun t _ _ step before => (step_intrinsics t step).trans before) inputs

end Programs

end Sinuca3.Guarantees
