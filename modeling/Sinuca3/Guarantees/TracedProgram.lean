import Sinuca3.Guarantees.OpenedTraces
import Sinuca3.Guarantees.RecordedInstructions
import Sinuca3.Guarantees.TracingRuns
import Sinuca3.Lib.Weave

/-!
# Traced programs

From the instrumentation of a program to the packets of a simulator: the tool writes three
kinds of files while the threads of the program run, and a reader of those files delivers to
each thread the instructions it executed, each with the accesses it made.
-/
namespace Sinuca3.Guarantees
open Sinuca3.Source Lib

/-- One pass of a thread through a block, with the accesses of each instruction at which
`AppendToMemTrace` was inserted. -/
structure Execution where
  block : InstrumentedBlock
  accesses : List (List MemAccess)
  oneEach : accesses.length = block.memoryCalls.length

/-- The accesses of an instruction: its loads and its stores. -/
def accessesOf (accessInfo : List MemAccess) : MemoryAccesses :=
  (opAccesses true (memOps accessInfo), opAccesses false (memOps accessInfo))

/-- The instructions of a pass, each with its accesses. -/
def Execution.instructions (intrinsics : List IntrinsicInfo) (e : Execution) :
    List (StaticInstructionInfo × MemoryAccesses) :=
  (weave (callsAppendToMemTrace intrinsics) [] e.block.bbl.instructions e.accesses).map
    (Prod.map (fun ins => translated (addedInstruction intrinsics ins)) accessesOf)

/-- A program under the tool. The threads pass through code that the tool has instrumented;
where in a block Pin puts the call for the block is open, and so is how the threads are
interleaved. -/
structure TracedRun where
  intrinsics : List IntrinsicInfo
  knobForceInstrumentation : Bool
  knobNumberOfInstructions : BitVec 32
  inputs : List ToolStep
  behaves : Behaves intrinsics knobForceInstrumentation knobNumberOfInstructions inputs
  executions : THREADID → List Execution
  instrumented : ∀ tid, ∀ e ∈ executions tid, e.block ∈
    (traceProgram intrinsics knobForceInstrumentation knobNumberOfInstructions inputs).1.codeCache
  accesses : ∀ tid, calledAccesses tid inputs = (executions tid).flatMap Execution.accesses

namespace TracedRun

variable (p : TracedRun)

def tool : Tool :=
  (traceProgram p.intrinsics p.knobForceInstrumentation p.knobNumberOfInstructions p.inputs).1

def threadCount : Nat := p.tool.pin.tool.threadDataVec.length

/-- What a thread executed, instruction by instruction. -/
def executed (tid : Nat) : List (StaticInstructionInfo × MemoryAccesses) :=
  (p.executions (BitVec.ofNat 32 tid)).flatMap (Execution.instructions p.intrinsics)

/-- The static instructions of all instrumented blocks. -/
def staticInstructions : Nat :=
  (p.tool.codeCache.map fun b => b.bbl.instructions.length).sum

/-- The program fits in the formats of the files and in the packets. -/
structure Fits : Prop where
  registers : ∀ info ∈ p.intrinsics, info.numWriteRegs.toNat ≤ 8
  instructions : p.staticInstructions < 2147483648
  threads : p.threadCount < 65536
  packets : ∀ tid, ∀ e ∈ p.executions tid, ∀ accessInfo ∈ e.accesses,
    FitsPacket (memOps accessInfo)

end TracedRun

/-- A program that ran to its end. -/
structure ProgramRun extends TracedRun where
  ended : ∀ tid, toTracedRun.tool.pin.threads tid = .unborn ∨
    toTracedRun.tool.pin.threads tid = .ended
  blocks : ∀ tid, calledBlocks tid inputs = (executions tid).map fun e =>
    (e.block.basicBlockIndex, e.block.numberInstInBasicBlock)

/-- A callback that no loop over the threads is left of. -/
theorem orderly_resume {s : PinState} {tid : THREADID} {callback : Callback}
    (inside : s.threads tid = .inCallback callback)
    (single : broadcastsFrom s.tool callback = none) : Orderly s (.resume tid) := by
  intro other first same broadcasts
  rw [inside] at same
  cases same
  rw [single] at broadcasts
  cases broadcasts

theorem withinLimit_of_below {s : PinState} {tid : THREADID}
    (below : s.tool.reachedMaximum = false) : WithinLimit s tid := fun _ _ _ => below

section OneThread

def loadInstruction : INS where
  mnemonic := octets "MOV"
  address := 4096
  size := 4
  hasFallThrough := true
  isMemoryRead := true
  operands := [⟨true, 3, false, true⟩]

def loadBlock : BBL := ⟨[loadInstruction, {}], List.cons_ne_nil _ _⟩

def loadAccess : MemAccess := ⟨8192, 8, true, true⟩

/-- One thread goes through a block of a load and another instruction. -/
def oneThreadInputs : List ToolStep :=
  [.onThreadStart 0 true true, .initInstrumentation,
    .onTrace 0 ⟨some (octets "main"), [loadBlock]⟩,
    .call 0 (.appendToDynamicTrace 0 2), .resume 0,
    .call 0 (.appendToMemTrace [loadAccess]), .resume 0, .resume 0, .resume 0,
    .call 0 .onThreadFini, .resume 0]

theorem behaves_oneThread : Behaves [] false (BitVec.allOnes 32) oneThreadInputs := by
  refine ⟨⟨rfl, rfl, rfl, rfl⟩, trivial, ?_, rfl,
    ⟨orderly_resume rfl rfl, withinLimit_of_below rfl⟩, rfl,
    ⟨orderly_resume rfl rfl, withinLimit_of_below rfl⟩,
    ⟨orderly_resume rfl rfl, withinLimit_of_below rfl⟩,
    ⟨orderly_resume rfl rfl, withinLimit_of_below rfl⟩, rfl,
    ⟨orderly_resume rfl rfl, withinLimit_of_below rfl⟩, trivial⟩
  intro bbl listed
  cases List.mem_singleton.mp listed
  decide

def oneThread : ProgramRun where
  intrinsics := []
  knobForceInstrumentation := false
  knobNumberOfInstructions := BitVec.allOnes 32
  inputs := oneThreadInputs
  behaves := behaves_oneThread
  executions tid :=
    if 0 = tid then [⟨⟨loadBlock, 0, 2, [loadInstruction]⟩, [[loadAccess]], rfl⟩] else []
  ended tid := by
    by_cases main : 0 = tid
    · subst main
      exact .inr rfl
    · refine .inl (not_not.mp fun born => ?_)
      have first : tid.toNat < 1 :=
        ((tracing_traceProgram behaves_oneThread).ordered.registered tid).mp born
      refine main (BitVec.eq_of_toNat_eq ?_)
      rw [Nat.lt_one_iff.mp first]
      rfl
  instrumented tid e member := by
    split at member
    · cases List.mem_singleton.mp member
      exact List.mem_singleton.mpr rfl
    · cases member
  blocks tid := by
    by_cases main : 0 = tid
    · subst main
      rfl
    · simp only [calledBlocks, oneThreadInputs, List.filterMap_cons, if_neg main]
      rfl
  accesses tid := by
    by_cases main : 0 = tid
    · subst main
      rfl
    · simp only [calledAccesses, oneThreadInputs, List.filterMap_cons, if_neg main]
      rfl

theorem fits_oneThread : oneThread.Fits where
  registers := by simp [oneThread]
  instructions := by decide
  threads := by decide
  packets tid e member accessInfo listed := by
    dsimp only [oneThread] at member
    split at member
    · cases List.mem_singleton.mp member
      cases List.mem_singleton.mp listed
      exact ⟨by decide, by decide, by decide⟩
    · cases member

end OneThread

section Delivery

variable {d : StaticDictionary}

def contents (p : InstructionPacket) : StaticInstructionInfo × MemoryAccesses :=
  (p.staticInfo, packetAccesses p)

/-- What a trace is to deliver. -/
def ThreadTrace.instructions (trace : ThreadTrace d) :
    List (StaticInstructionInfo × MemoryAccesses) :=
  weave accessesMemory ([], []) (expansion d trace.records) (trace.groups.map groupAccesses)

/-- A thread has received some of that, and the rest remains. -/
theorem Follows.contents {trace : ThreadTrace d} {packets : List InstructionPacket}
    {t : ThreadData} (follows : Follows trace packets t) :
    ∃ rest, packets.map Guarantees.contents ++ rest = trace.instructions ∧
      rest.length = (remaining d t).length := by
  obtain ⟨left, _, paired⟩ := follows.groups
  have parts := weave_parts accessesMemory ([], []) (packets.map Guarantees.contents) (by
    intro pair member plain
    obtain ⟨p, listed, rfl⟩ := List.mem_map.mp member
    exact follows.plain p listed plain)
  rw [List.map_map, List.filter_map, List.map_map] at parts
  have enough : ((packets.map fun p => p.staticInfo).filter accessesMemory).length =
      ((packets.filter fun p => accessesMemory p.staticInfo).map packetAccesses).length := by
    rw [List.filter_map, List.length_map, List.length_map]
    rfl
  have whole := weave_append accessesMemory ([], []) _ (remaining d t) _ (left.map groupAccesses)
    enough
  rw [follows.instructions, paired] at whole
  refine ⟨_, ?_, length_weave accessesMemory ([], []) (remaining d t) (left.map groupAccesses)⟩
  rw [ThreadTrace.instructions, whole]
  exact congrArg (· ++ _) parts.symm

/-- A thread that has seen the end of its file has received everything. -/
theorem Follows.all_contents {trace : ThreadTrace d} {packets : List InstructionPacket}
    {t : ThreadData} (follows : Follows trace packets t) (ended : t.dynFile.reachedEnd = true) :
    packets.map Guarantees.contents = trace.instructions := by
  obtain ⟨rest, whole, length⟩ := follows.contents
  obtain ⟨outside, done⟩ := follows.ended ended
  have none : remaining d t = [] := by
    rw [remaining, if_neg (by simp [outside]), done]
    rfl
  rw [none] at length
  rwa [List.eq_nil_of_length_eq_zero length, List.append_nil] at whole

end Delivery

namespace TracedRun

section Files

variable (p : TracedRun)

/-- The blocks of the static trace. -/
def recordedBlocks : List (List Instruction) :=
  p.tool.codeCache.map fun b => recordedBlock p.intrinsics b.bbl

theorem tracing : Tracing p.tool p.inputs (traceProgram p.intrinsics p.knobForceInstrumentation
    p.knobNumberOfInstructions p.inputs).2 :=
  tracing_traceProgram p.behaves

theorem static_traced : StaticTraced p.intrinsics p.tool.codeCache p.threadCount
    p.tool.pin.tool.staticTrace := by
  have traced := p.tracing.static
  rwa [show p.tool.intrinsics = p.intrinsics from intrinsics_traceProgram] at traced

theorem recordedBlocks_nonempty : ∀ b ∈ p.recordedBlocks, b ≠ [] := by
  intro b member
  obtain ⟨block, _, rfl⟩ := List.mem_map.mp member
  simpa [recordedBlock] using block.bbl.nonempty

theorem recordedBlocks_size_lt : ∀ b ∈ p.recordedBlocks, b.length < 65536 := by
  intro b member
  obtain ⟨block, cached, rfl⟩ := List.mem_map.mp member
  simpa [recordedBlock] using p.static_traced.small block cached

theorem sum_recordedBlocks : (p.recordedBlocks.map List.length).sum = p.staticInstructions := by
  rw [recordedBlocks, staticInstructions, List.map_map]
  simp [recordedBlock, Function.comp_def]

/-- The dictionary of the program. -/
def dictionary : StaticDictionary :=
  dictionaryOf p.recordedBlocks p.recordedBlocks_nonempty p.recordedBlocks_size_lt

/-- The file of the static trace. -/
theorem static_file :
    ∃ header : FileHeader, header.traceVersion = 1 ∧ header.targetArch = 0 ∧
      header.instCount = BitVec.ofNat 32 (p.recordedBlocks.map List.length).sum ∧
      header.bblCount = BitVec.ofNat 32 p.recordedBlocks.length ∧
      header.threadCount = BitVec.ofNat 16 p.threadCount ∧
      p.tool.pin.tool.staticTrace.destroy.map File.content =
        some (FileHeader.codec.encode header ++
          (p.recordedBlocks.flatMap blockRecords).flatMap StaticTraceRecord.codec.encode) := by
  obtain ⟨blocks, calls, written, tracked, same⟩ := p.static_traced.given
  have small := tracked.session.small
  have gathers := StaticTraceWriter.gathers_openFile.calls calls small
  obtain ⟨insts, bbls⟩ := calls_header calls StaticTraceWriter.gathers_openFile small
  obtain ⟨version, target, threads⟩ :=
    calls_header_rest calls StaticTraceWriter.gathers_openFile small tracked.target
  rw [StaticTraceWriter.Gathered.foldl_call_filter, tracked.session.adds, gather_blocks,
    List.nil_append] at gathers
  obtain ⟨file, opened, reserved⟩ := gathers.written
  obtain ⟨f, flush, content⟩ := FileHeader.flushHeader_reserved
    (calls.foldl StaticTraceWriter.call StaticTraceWriter.create.openFile).header reserved
  have lengths : (blocks.map fun b => b.instructions.length) =
      p.recordedBlocks.map List.length := by
    rw [recordedBlocks, ← same, List.map_map]
    rfl
  have count : blocks.length = p.recordedBlocks.length := by
    rw [recordedBlocks, ← same, List.length_map]
  refine ⟨_, version, target, ?_, ?_, ?_, ?_⟩
  · rw [insts, tracked.session.instructions, lengths]
    exact BitVec.zero_add _
  · rw [bbls, tracked.session.basicBlocks, count]
    exact BitVec.zero_add _
  · rw [threads, tracked.threads]
    exact BitVec.zero_add _
  · rw [written, StaticTraceWriter.destroy, opened, flush, Option.map_some,
      content, recordedBlocks, ← same, List.flatMap_map]

/-- The block that a pass goes through, in the dictionary. -/
theorem block_of_execution (few : p.staticInstructions < 2147483648) {tid : THREADID}
    {e : Execution} (member : e ∈ p.executions tid) :
    e.block.basicBlockIndex.toNat < p.dictionary.blocks.length ∧
      p.dictionary.block e.block.basicBlockIndex.toNat =
        (recordedBlock p.intrinsics e.block.bbl).map translated := by
  have cached : e.block ∈ p.tool.codeCache := p.instrumented tid e member
  obtain ⟨k, present, same⟩ := List.mem_iff_getElem.mp cached
  have fewBlocks : p.tool.codeCache.length ≤ p.staticInstructions := by
    have atLeast := List.length_le_sum_of_one_le
      (p.tool.codeCache.map fun b => b.bbl.instructions.length) (by
        intro n listed
        obtain ⟨b, _, rfl⟩ := List.mem_map.mp listed
        exact List.length_pos_iff.mpr b.bbl.nonempty)
    rwa [List.length_map] at atLeast
  have index : e.block.basicBlockIndex.toNat = k := by
    rw [← same, (p.static_traced.inserted k present).1, BitVec.toNat_ofNat]
    exact Nat.mod_eq_of_lt (by omega)
  have listed : p.recordedBlocks[k]? = some (recordedBlock p.intrinsics e.block.bbl) := by
    rw [recordedBlocks, List.getElem?_map, List.getElem?_eq_getElem present, same]
    rfl
  rw [index]
  refine ⟨?_, ?_⟩
  · simpa [dictionary, dictionaryOf, recordedBlocks] using present
  · rw [dictionary, block_dictionaryOf, List.getD_eq_getElem?_getD, listed, Option.getD_some]

/-- The data at an index is that of the thread with this number, which has started. -/
theorem opened_of_present {i : Nat} {d : Pintool.ThreadData}
    (present : p.tool.pin.tool.threadDataVec[i]? = some d) :
    d.openedFor = BitVec.ofNat 32 i ∧ d.openedFor.toNat = i ∧
      p.tool.pin.threads d.openedFor ≠ .unborn ∧
      (d.deleted = true ↔ p.tool.pin.threads d.openedFor = .ended) := by
  have entry : (registry p.tool.pin.tool)[i]? = some (d.openedFor, d.deleted) := by
    rw [registry, List.getElem?_map, present]
    rfl
  obtain ⟨own, deleted⟩ := p.tracing.ordered.opened i _ entry
  dsimp only at own deleted
  have inside := (List.getElem?_eq_some_iff.mp present).1
  refine ⟨?_, own, (p.tracing.ordered.registered d.openedFor).mpr (by omega), deleted⟩
  rw [← own, BitVec.ofNat_toNat, BitVec.setWidth_eq]

end Files

/-- The accesses of a pass, as groups that the reader accepts. -/
theorem exists_groups (accesses : List (List MemAccess))
    (fits : ∀ accessInfo ∈ accesses, FitsPacket (memOps accessInfo)) :
    ∃ groups : List MemoryGroup, groups.length = accesses.length ∧
      groups.flatMap MemoryGroup.records =
        accesses.flatMap (fun accessInfo => groupRecords (memOps accessInfo)) ∧
      groups.map groupAccesses = accesses.map accessesOf := by
  induction accesses with
  | nil => exact ⟨[], rfl, rfl, rfl⟩
  | cons accessInfo accesses ih =>
    obtain ⟨groups, length, records, same⟩ :=
      ih fun other member => fits other (List.mem_cons_of_mem accessInfo member)
    have first := fits accessInfo (List.mem_cons_self ..)
    refine ⟨first.group :: groups, by rw [List.length_cons, length, List.length_cons], ?_, ?_⟩
    · rw [List.flatMap_cons, List.flatMap_cons, records, first.records]
    · rw [List.map_cons, List.map_cons, same]
      refine congrArg (· :: _) (Prod.ext ?_ ?_)
      · exact accesses_opRecord true _ first.sizes
      · exact accesses_opRecord false _ first.sizes

section Traces

variable {p : TracedRun} (fits : p.Fits)
include fits

/-- The instructions of a pass are its block with its accesses. -/
theorem executed_eq_weave (tid : THREADID) (executions : List Execution)
    (passes : ∀ e ∈ executions, e ∈ p.executions tid) :
    weave accessesMemory ([], [])
        (executions.flatMap fun e => p.dictionary.block e.block.basicBlockIndex.toNat)
        ((executions.flatMap Execution.accesses).map accessesOf) =
      executions.flatMap (Execution.instructions p.intrinsics) ∧
    ((executions.flatMap fun e =>
        p.dictionary.block e.block.basicBlockIndex.toNat).filter accessesMemory).length =
      (executions.flatMap Execution.accesses).length := by
  induction executions with
  | nil => exact ⟨rfl, rfl⟩
  | cons e executions ih =>
    obtain ⟨rest, count⟩ := ih fun other member => passes other (List.mem_cons_of_mem e member)
    have member := passes e (List.mem_cons_self ..)
    have block := (p.block_of_execution fits.instructions member).2
    have marked : ∀ ins ∈ e.block.bbl.instructions,
        accessesMemory (translated (addedInstruction p.intrinsics ins)) =
          callsAppendToMemTrace p.intrinsics ins :=
      fun ins _ => accessesMemory_addedInstruction p.intrinsics fits.registers ins
    obtain ⟨k, present, same⟩ := List.mem_iff_getElem.mp (p.instrumented tid e member)
    have inserted := (p.static_traced.inserted k present).2.2
    have calls : e.block.memoryCalls =
        e.block.bbl.instructions.filter (callsAppendToMemTrace p.intrinsics) := by
      rw [← same]
      exact inserted
    have statics : (recordedBlock p.intrinsics e.block.bbl).map translated =
        e.block.bbl.instructions.map fun ins => translated (addedInstruction p.intrinsics ins) := by
      rw [recordedBlock, List.map_map]
      rfl
    have enough : ((e.block.bbl.instructions.map fun ins =>
        translated (addedInstruction p.intrinsics ins)).filter accessesMemory).length =
        (e.accesses.map accessesOf).length := by
      rw [List.filter_map, List.length_map, List.length_map, e.oneEach, calls]
      exact congrArg List.length (List.filter_congr marked)
    rw [List.flatMap_cons, List.flatMap_cons, List.flatMap_cons, List.map_append, block, statics]
    constructor
    · rw [weave_append _ _ _ _ _ _ enough, rest]
      exact congrArg (· ++ _) (weave_map _ [] accessesMemory _ accessesOf _ _ marked)
    · rw [List.filter_append, List.length_append, enough, count, List.length_append,
        List.length_map]

/-- The trace of a thread whose files hold the blocks that it passed through and the groups
of its accesses. -/
theorem exists_trace (tid : Nat) {records : List DynamicTraceRecord}
    (ids : blockIds records = (p.executions (BitVec.ofNat 32 tid)).map
      fun e => e.block.basicBlockIndex.toNat)
    (known : ∀ r ∈ records, r.getRecordType = .basicBlockIdentifier ∨
      r.getRecordType = .threadEvent) :
    ∃ trace : ThreadTrace p.dictionary,
      trace.files = ⟨records, (calledAccesses (BitVec.ofNat 32 tid) p.inputs).flatMap
        fun accessInfo => groupRecords (memOps accessInfo)⟩ ∧
      trace.instructions = p.executed tid := by
  have accesses := p.accesses (BitVec.ofNat 32 tid)
  obtain ⟨groups, length, groupsRecords, same⟩ := exists_groups
    (calledAccesses (BitVec.ofNat 32 tid) p.inputs) (by
      intro accessInfo member
      rw [accesses, List.mem_flatMap] at member
      obtain ⟨e, listed, inside⟩ := member
      exact fits.packets _ e listed accessInfo inside)
  obtain ⟨woven, count⟩ := executed_eq_weave fits (BitVec.ofNat 32 tid)
    (p.executions (BitVec.ofNat 32 tid)) fun _ member => member
  have expanded : expansion p.dictionary records =
      (p.executions (BitVec.ofNat 32 tid)).flatMap
        fun e => p.dictionary.block e.block.basicBlockIndex.toNat := by
    rw [expansion, ids, List.flatMap_map]
  have inRange : ∀ r ∈ records, InRange p.dictionary r := by
    intro r member
    rcases known r member with block | event
    · refine .inl ⟨block, ?_⟩
      have listed : r.getBasicBlockIdentifier ∈ blockIds records :=
        List.mem_filterMap.mpr ⟨r, member, by rw [block]⟩
      rw [ids] at listed
      obtain ⟨e, pass, index⟩ := List.mem_map.mp listed
      rw [← index]
      exact (p.block_of_execution fits.instructions pass).1
    · exact .inr event
  refine ⟨{
    records := records
    groups := groups
    inRange := inRange
    onePerAccess := by rw [length, expanded, count, accesses] }, ?_, ?_⟩
  · rw [ThreadTrace.files, groupsRecords]
  · unfold ThreadTrace.instructions
    dsimp only
    rw [expanded, same, accesses, woven]
    rfl

end Traces

end TracedRun

section Opening

/-- The data of a thread that is over, and what its files hold. -/
structure ClosedFiles (files : ThreadFiles) (d : Pintool.ThreadData) : Prop where
  deleted : d.deleted = true
  dynamic : d.dynamicTrace.Holds DynamicTraceRecord.codec files.dynamic
  dynamicHeader : OwnHeader d.dynamicTrace
  memory : d.memoryTrace.Holds MemoryTraceRecord.codec files.memory
  memoryHeader : d.memoryTrace.header = MemoryTraceWriter.create.header

/-- The data of each thread is at its number. -/
def OwnPlaces (t : Tool) : Prop :=
  ∀ (i : Nat) d, t.pin.tool.threadDataVec[i]? = some d → d.openedFor.toNat = i

theorem OwnPlaces.find {t : Tool} (own : OwnPlaces t) {i : Nat} {d : Pintool.ThreadData}
    (present : t.pin.tool.threadDataVec[i]? = some d) :
    t.pin.tool.threadDataVec.find? (fun d => d.openedFor.toNat = i) = some d := by
  obtain ⟨inside, rfl⟩ := List.getElem?_eq_some_iff.mp present
  refine List.find?_eq_some_iff_getElem.mpr
    ⟨by simpa using own i _ present, i, inside, rfl, fun j earlier => ?_⟩
  have other := own j _ (List.getElem?_eq_getElem (Nat.lt_trans earlier inside))
  rw [other]
  simpa using Nat.ne_of_lt earlier

/-- The files that the directory has of such a thread. -/
theorem ClosedFiles.written {files : ThreadFiles} {d : Pintool.ThreadData}
    (closed : ClosedFiles files d) {t : Tool} (own : OwnPlaces t) {i : Nat}
    (present : t.pin.tool.threadDataVec[i]? = some d) {header : FileHeader}
    (version : header.traceVersion = 1) (target : header.targetArch = 0) :
    WrittenFile DynamicTraceRecord.codec header files.dynamic (t.directory.dynamicTrace i) ∧
      WrittenFile MemoryTraceRecord.codec header files.memory (t.directory.memoryTrace i) := by
  have found := own.find present
  constructor
  · obtain ⟨file, done, content⟩ := closed.dynamic.destroy
    refine ⟨_, closed.dynamicHeader.1.trans version.symm,
      closed.dynamicHeader.2.trans target.symm, ?_⟩
    rw [Tool.directory]
    dsimp only
    rw [found, Option.bind_some, Tool.threadFile, if_pos closed.deleted, done, Option.map_some,
      content]
  · obtain ⟨file, done, content⟩ := closed.memory.destroy
    refine ⟨d.memoryTrace.header, ?_, ?_, ?_⟩
    · rw [closed.memoryHeader, version]
      rfl
    · rw [closed.memoryHeader, target]
      rfl
    · rw [Tool.directory]
      dsimp only
      rw [found, Option.bind_some, Tool.threadFile, if_pos closed.deleted, done, Option.map_some,
        content]

/-- The files that a tool leaves are opened as the reader of their traces, where all its
threads are over. -/
theorem TracedRun.exists_traces {p : TracedRun} (fits : p.Fits) {t : Tool}
    (sameStatic : t.pin.tool.staticTrace = p.tool.pin.tool.staticTrace)
    (sameLength : t.pin.tool.threadDataVec.length = p.threadCount) (own : OwnPlaces t)
    (P : Nat → ThreadTrace p.dictionary → Prop)
    (closed : ∀ (i : Nat) d, t.pin.tool.threadDataVec[i]? = some d →
      ∃ trace : ThreadTrace p.dictionary, ClosedFiles trace.files d ∧ P i trace)
    (garbage : Nat → BitVec 64) :
    ∃ traces : List (ThreadTrace p.dictionary), traces.length = p.threadCount ∧
      (∀ tid (present : tid < traces.length), P tid traces[tid]) ∧
      SinucaTraceReader.openDirectory t.directory garbage =
        some ((SinucaTraceReader.openTrace p.dictionary (traces.map ThreadTrace.files)
          garbage).withDict (filledDict p.recordedBlocks).instruction) := by
  obtain ⟨header, version, target, insts, bbls, threads, staticTrace⟩ := p.static_file
  have each : ∀ i : Fin p.threadCount, ∃ trace : ThreadTrace p.dictionary,
      (WrittenFile DynamicTraceRecord.codec header trace.files.dynamic
          (t.directory.dynamicTrace i) ∧
        WrittenFile MemoryTraceRecord.codec header trace.files.memory
          (t.directory.memoryTrace i)) ∧ P i trace := by
    intro i
    have inside : i.val < t.pin.tool.threadDataVec.length := by
      rw [sameLength]
      exact i.isLt
    have present := List.getElem?_eq_getElem inside
    obtain ⟨trace, files, known⟩ := closed i _ present
    exact ⟨trace, files.written own present version target, known⟩
  choose trace written known using each
  have files : ∀ tid (present : tid < p.threadCount),
      ((List.ofFn trace).map ThreadTrace.files)[tid]? = some (trace ⟨tid, present⟩).files := by
    intro tid present
    rw [List.getElem?_map, List.getElem?_ofFn, dif_pos present]
    rfl
  have count : ((List.ofFn trace).map ThreadTrace.files).length = p.threadCount := by
    rw [List.length_map, List.length_ofFn]
  have directory : WrittenDirectory t.directory p.recordedBlocks
      ((List.ofFn trace).map ThreadTrace.files) header := by
    refine ⟨?_, insts, bbls, by rw [threads, count], fun tid present => ?_,
      fun tid present => ?_⟩
    · rw [Tool.directory, sameStatic]
      exact staticTrace
    all_goals
      have here : tid < p.threadCount := by rwa [count] at present
      have same := files tid here
      rw [List.getElem?_eq_getElem present, Option.some_inj] at same
      rw [same]
    · exact (written ⟨tid, here⟩).1
    · exact (written ⟨tid, here⟩).2
  refine ⟨List.ofFn trace, List.length_ofFn, fun tid present => ?_,
    openDirectory_written p.recordedBlocks_nonempty p.recordedBlocks_size_lt directory ?_ ?_
      garbage⟩
  · rw [List.length_ofFn] at present
    rw [List.getElem_ofFn]
    exact known ⟨tid, present⟩
  · rw [p.sum_recordedBlocks]
    exact fits.instructions
  · rw [count]
    exact fits.threads

/-- The data of a thread at the end: all that it has done was given to its writers. -/
theorem ProgramRun.thread_closed {p : ProgramRun} (fits : p.Fits) {i : Nat}
    {d : Pintool.ThreadData} (present : p.tool.pin.tool.threadDataVec[i]? = some d) :
    ∃ trace : ThreadTrace p.dictionary, ClosedFiles trace.files d ∧
      trace.instructions = p.executed i ∧
      (¬ Eventful p.inputs → ∀ r ∈ trace.records, r.getRecordType ≠ .threadEvent) := by
  obtain ⟨index, _, born, deleted⟩ := p.opened_of_present present
  have ended := (p.ended d.openedFor).resolve_left born
  have traced := p.tracing.data i d present
  rw [← index, ended] at traced
  obtain ⟨done, dynamic, blocks⟩ := traced.dynamic
  obtain ⟨calls, memory, groups⟩ := traced.memory
  have noBlocks : pendingBlocks .ended = [] := rfl
  have noCalls : pendingCalls .ended = [] := rfl
  rw [noBlocks, List.append_nil] at blocks
  rw [noCalls, List.append_nil] at groups
  obtain ⟨records, given, ids, known⟩ := dynamic.given
  have indices : blockIds records = (p.executions (BitVec.ofNat 32 i)).map
      fun e => e.block.basicBlockIndex.toNat := by
    rw [ids, blocks, p.blocks, List.map_map, index]
    rfl
  obtain ⟨trace, files, instructions⟩ := TracedRun.exists_trace fits i indices
    fun r member => (known r member).imp_right And.left
  refine ⟨trace, ⟨deleted.mpr ended, ?_, dynamic.header, ?_, memory.header⟩, instructions, ?_⟩
  · rw [files]
    exact given.holds
  · rw [files, ← index, ← groups]
    exact memory.holds
  · intro quiet r member event
    have same : trace.records = records := congrArg ThreadFiles.dynamic files
    rw [same] at member
    rcases known r member with block | ⟨_, eventful⟩
    · rw [event] at block
      cases block
    · exact quiet eventful

variable {p : ProgramRun}

/-- The directory of a program is opened as the reader of its traces. -/
theorem exists_traces (fits : p.Fits) (garbage : Nat → BitVec 64) :
    ∃ traces : List (ThreadTrace p.dictionary), traces.length = p.threadCount ∧
      (∀ tid (present : tid < traces.length), traces[tid].instructions = p.executed tid ∧
        (¬ Eventful p.inputs → ∀ r ∈ traces[tid].records, r.getRecordType ≠ .threadEvent)) ∧
      SinucaTraceReader.openDirectory p.tool.directory garbage =
        some ((SinucaTraceReader.openTrace p.dictionary (traces.map ThreadTrace.files)
          garbage).withDict (filledDict p.recordedBlocks).instruction) :=
  TracedRun.exists_traces fits rfl rfl (fun _ _ present => (p.opened_of_present present).2.1) _
    (fun _ _ present => ProgramRun.thread_closed fits present) garbage

/-- A reader of the traces of a program, under any interleaving of calls. -/
theorem TracedRun.opened_replays {p : TracedRun} {traces : List (ThreadTrace p.dictionary)}
    (length : traces.length = p.threadCount)
    (known : ∀ tid (present : tid < traces.length), traces[tid].instructions = p.executed tid)
    (garbage : Nat → BitVec 64) (calls : List FetchCall)
    (inRange : ∀ call ∈ calls, call.tid < p.threadCount) :
    let run := Machine.run replayStep ((SinucaTraceReader.openTrace p.dictionary
      (traces.map ThreadTrace.files) garbage).withDict
        (filledDict p.recordedBlocks).instruction) calls
    ∀ tid < p.threadCount,
      (received tid run.2).map contents <+: p.executed tid ∧
      ((run.1.threadDataVec tid).dynFile.reachedEnd = true →
        (received tid run.2).map contents = p.executed tid) := by
  have inside : ∀ call ∈ calls, call.tid < traces.length := by rwa [length]
  have agrees : AgreesInside (filledDict p.recordedBlocks).instruction p.dictionary :=
    agreesInside_filledDict _ _
  rw [replay_withDict agrees traces garbage calls inside]
  intro run tid present
  have listed : tid < traces.length := by rwa [length]
  have follows := (replay_replaying traces garbage calls inside).follows tid listed
  have instructions := known tid listed
  obtain ⟨rest, whole, _⟩ := follows.contents
  rw [instructions] at whole
  refine ⟨⟨rest, whole⟩, fun ended => ?_⟩
  rw [← instructions]
  exact follows.all_contents ended

/-- Every program that fits, with any interleaving of its threads: the files it leaves are
opened, and under any interleaving of calls each thread receives a prefix of the
instructions it executed, each with its accesses, and all of them before its file ends. -/
theorem traced_program_replays (p : ProgramRun) (fits : p.Fits) (garbage : Nat → BitVec 64) :
    ∃ s, SinucaTraceReader.openDirectory p.tool.directory garbage = some s ∧
      ∀ calls : List FetchCall, (∀ call ∈ calls, call.tid < p.threadCount) →
        let run := Machine.run replayStep s calls
        ∀ tid < p.threadCount,
          (received tid run.2).map contents <+: p.executed tid ∧
          ((run.1.threadDataVec tid).dynFile.reachedEnd = true →
            (received tid run.2).map contents = p.executed tid) := by
  obtain ⟨traces, length, known, opened⟩ := exists_traces fits garbage
  exact ⟨_, opened, TracedRun.opened_replays length
    (fun tid present => (known tid present).1) garbage⟩

theorem oneThread_replays : ∃ s,
    SinucaTraceReader.openDirectory oneThread.tool.directory (fun _ => 0) = some s ∧
      (received 0 (Machine.run replayStep s [⟨default, 0⟩]).2).map contents <+:
        oneThread.executed 0 := by
  obtain ⟨s, opened, delivered⟩ := traced_program_replays oneThread fits_oneThread fun _ => 0
  exact ⟨s, opened, (delivered [⟨default, 0⟩] (by decide) 0 (by decide)).1⟩

end Opening

end Sinuca3.Guarantees
