import Mathlib.Algebra.BigOperators.Group.List.Basic
import Sinuca3.Guarantees.FaithfulReplay
import Sinuca3.Guarantees.StaticRoundTrip
import Sinuca3.Guarantees.TraceRoundTrip
import Sinuca3.Source.Tracer.OpenTrace

/-!
# Opened traces

A directory with the files of a static trace and of the threads it counts is opened as the
reader of the blocks and records that were written. Its dictionary goes on behind the blocks,
where no thread that follows its trace ever looks.
-/
namespace Sinuca3.Guarantees
open Sinuca3.Source Lib

/-- A file of records under a header that goes with that of the static trace. -/
def WrittenFile {α : Type} (c : Codec α) (header : FileHeader) (records : List α)
    (file : Option (List Byte)) : Prop :=
  ∃ h : FileHeader, h.traceVersion = header.traceVersion ∧ h.targetArch = header.targetArch ∧
    file = some (FileHeader.codec.encode h ++ records.flatMap c.encode)

/-- The files of a directory. -/
structure WrittenDirectory (directory : TraceDirectory) (blocks : List (List Instruction))
    (threads : List ThreadFiles) (header : FileHeader) : Prop where
  staticTrace : directory.staticTrace = some (FileHeader.codec.encode header ++
    (blocks.flatMap blockRecords).flatMap StaticTraceRecord.codec.encode)
  instCount : header.instCount = BitVec.ofNat 32 (blocks.map List.length).sum
  bblCount : header.bblCount = BitVec.ofNat 32 blocks.length
  threadCount : header.threadCount = BitVec.ofNat 16 threads.length
  dynamicTrace : ∀ tid (present : tid < threads.length),
    WrittenFile DynamicTraceRecord.codec header threads[tid].dynamic (directory.dynamicTrace tid)
  memoryTrace : ∀ tid (present : tid < threads.length),
    WrittenFile MemoryTraceRecord.codec header threads[tid].memory (directory.memoryTrace tid)

theorem openFile_written {α : Type} {c : Codec α} (positive : 0 < c.width) {header : FileHeader}
    {records : List α} {file : Option (List Byte)} (written : WrittenFile c header records file) :
    ∃ octets, ∃ t : TraceFile α, file = some octets ∧ TraceFile.openFile octets = some t ∧
      t.header.traceVersion = header.traceVersion ∧ t.header.targetArch = header.targetArch ∧
      c.records t.file.remaining = records ∧ t.recordArray = [] ∧ t.numberOfRecordsRead = 0 ∧
      t.recordArrayIndex = 0 ∧ t.reachedEnd = false := by
  obtain ⟨h, version, target, rfl⟩ := written
  obtain ⟨rest, opened, all⟩ := openFile_records c positive h records
  exact ⟨_, _, rfl, opened, version, target, all, rfl, rfl, rfl, rfl⟩

/-- The files of a thread are opened as the readers of their records. -/
theorem openThread_written {directory : TraceDirectory} {header : FileHeader} {tid : Nat}
    {files : ThreadFiles}
    (dynamicTrace : WrittenFile DynamicTraceRecord.codec header files.dynamic
      (directory.dynamicTrace tid))
    (memoryTrace : WrittenFile MemoryTraceRecord.codec header files.memory
      (directory.memoryTrace tid)) :
    ∃ t, OpenedThread.openThread directory header tid = some t ∧ ∀ fetchedInst,
      t.threadData fetchedInst = {
        dynFile := .openFile files.dynamic
        memFile := .openFile files.memory
        currentBasicBlock := 0
        fetchedInst
        currentInst := 0
        isInsideBasicBlock := false } := by
  obtain ⟨octets, dynFile, here, opened, version, target, records, array, read, index, running⟩ :=
    openFile_written (by decide) dynamicTrace
  obtain ⟨octets', memFile, here', opened', version', target', records', array', read', index',
    running'⟩ := openFile_written (by decide) memoryTrace
  refine ⟨⟨dynFile, memFile⟩, ?_, fun fetchedInst => ?_⟩
  · simp [OpenedThread.openThread, OpenedThread.allocate, OpenedThread.checkVersion,
      OpenedThread.checkTargetArch, here, here', opened, opened', version, version', target,
      target']
  · simp [OpenedThread.threadData, DynamicTraceFile.dynamic, MemoryTraceFile.memory,
      DynamicTraceReader.openFile, MemoryTraceReader.openFile, records, records', array, array',
      read, read', index, index', running, running']

theorem mapM_some {α β : Type} (f : α → Option β) (P : α → β → Prop) (xs : List α)
    (each : ∀ x ∈ xs, ∃ y, f x = some y ∧ P x y) :
    ∃ ys, xs.mapM f = some ys ∧ List.Forall₂ P xs ys := by
  induction xs with
  | nil => exact ⟨[], rfl, .nil⟩
  | cons x xs ih =>
    obtain ⟨y, first, good⟩ := each x (List.mem_cons_self ..)
    obtain ⟨ys, rest, all⟩ := ih fun y member => each y (List.mem_cons_of_mem x member)
    refine ⟨y :: ys, ?_, .cons good all⟩
    rw [List.mapM_cons, first, rest]
    rfl

/-- The dictionary of the blocks, as the reader of records has it. -/
def dictionaryOf (blocks : List (List Instruction)) (nonempty : ∀ b ∈ blocks, b ≠ [])
    (size_lt : ∀ b ∈ blocks, b.length < 65536) : StaticDictionary where
  blocks := blocks.map fun block => block.map translated
  nonempty := by
    intro b member
    obtain ⟨block, listed, rfl⟩ := List.mem_map.mp member
    simpa using nonempty block listed
  size_lt := by
    intro b member
    obtain ⟨block, listed, rfl⟩ := List.mem_map.mp member
    simpa using size_lt block listed

/-- What `GenerateInstructionDict` fills for the blocks. -/
def filledDict (blocks : List (List Instruction)) : InstructionDict where
  basicBlockSizeArr := blocks.map List.length
  instructionDict := (List.range blocks.length).map (startOf blocks)
  instructionPool := blocks.flatMap fun block => block.map translated

section Opened

variable {directory : TraceDirectory} {blocks : List (List Instruction)}
  {threads : List ThreadFiles} {header : FileHeader}
  (nonempty : ∀ b ∈ blocks, b ≠ []) (size_lt : ∀ b ∈ blocks, b.length < 65536)

/-- Inside the blocks the dictionary says what was written. -/
def AgreesInside (dict : Nat → Nat → StaticInstructionInfo) (d : StaticDictionary) : Prop :=
  ∀ k j, j < (d.block k).length → dict k j = (d.block k).getD j default

theorem block_dictionaryOf (k : Nat) :
    (dictionaryOf blocks nonempty size_lt).block k = (blocks.getD k []).map translated := by
  rw [StaticDictionary.block, dictionaryOf, List.getD_eq_getElem?_getD, List.getElem?_map,
    List.getD_eq_getElem?_getD]
  cases blocks[k]? <;> rfl

theorem agreesInside_filledDict :
    AgreesInside (filledDict blocks).instruction (dictionaryOf blocks nonempty size_lt) := by
  intro k j inside
  have block : blocks.getD k [] = blocks[k]?.getD [] := List.getD_eq_getElem?_getD
  rw [block_dictionaryOf, block] at inside ⊢
  cases present : blocks[k]? with
  | none => simp [present] at inside
  | some block =>
    obtain ⟨listed, rfl⟩ := List.getElem?_eq_some_iff.mp present
    rw [present, Option.getD_some, List.length_map] at inside
    have start : (filledDict blocks).instructionDict.getD k 0 = startOf blocks k := by
      simp [filledDict, listed]
    rw [InstructionDict.instruction, start, List.getD_eq_getElem?_getD, filledDict,
      getElem_slice blocks k listed j inside]
    simp [inside]

theorem openDirectory_written (written : WrittenDirectory directory blocks threads header)
    (fewInstructions : (blocks.map List.length).sum < 2147483648)
    (fewThreads : threads.length < 65536) (garbage : Nat → BitVec 64) :
    SinucaTraceReader.openDirectory directory garbage =
      some ((SinucaTraceReader.openTrace (dictionaryOf blocks nonempty size_lt) threads
        garbage).withDict (filledDict blocks).instruction) := by
  obtain ⟨r, opened, sameHeader, remaining⟩ := StaticTraceReader.openFile_encode header
    ((blocks.flatMap blockRecords).flatMap StaticTraceRecord.codec.encode)
  have total : r.getTotalInstInStaticTrace = (blocks.map List.length).sum := by
    rw [StaticTraceReader.getTotalInstInStaticTrace, sameHeader, written.instCount,
      BitVec.toInt_ofNat', Int.bmod_def]
    omega
  have fewBlocks : blocks.length ≤ (blocks.map List.length).sum := by
    have atLeast := List.length_le_sum_of_one_le (blocks.map List.length) (by
      intro n member
      obtain ⟨b, listed, rfl⟩ := List.mem_map.mp member
      exact List.length_pos_iff.mpr (nonempty b listed))
    rwa [List.length_map] at atLeast
  have count : r.getTotalBasicBlocks = blocks.length := by
    rw [StaticTraceReader.getTotalBasicBlocks, sameHeader, written.bblCount, BitVec.toNat_ofNat]
    exact Nat.mod_eq_of_lt (by omega)
  have threadCount : r.getNumThreads = threads.length := by
    rw [StaticTraceReader.getNumThreads, sameHeader, written.threadCount, BitVec.toNat_ofNat]
    exact Nat.mod_eq_of_lt fewThreads
  have dictionary : generateInstructionDict r = some (filledDict blocks) := by
    have looped := blockLoop_blocks blocks size_lt [] r (by rw [remaining, List.append_nil])
      [] [] []
    rw [generateInstructionDict, total, if_neg (by omega), count, Int.toNat_natCast]
    simpa [filledDict] using looped
  obtain ⟨opens, mapped, all⟩ := mapM_some (OpenedThread.openThread directory header)
    (fun tid (t : OpenedThread) => ∀ fetchedInst, t.threadData fetchedInst = {
      dynFile := .openFile (threads.getD tid default).dynamic
      memFile := .openFile (threads.getD tid default).memory
      currentBasicBlock := 0
      fetchedInst
      currentInst := 0
      isInsideBasicBlock := false }) (List.range threads.length) (by
    intro tid member
    have present := List.mem_range.mp member
    rw [List.getD_eq_getElem?_getD, List.getElem?_eq_getElem present, Option.getD_some]
    exact openThread_written (written.dynamicTrace tid present) (written.memoryTrace tid present))
  obtain ⟨length, each⟩ := List.forall₂_iff_get.mp all
  rw [List.length_range] at length
  rw [SinucaTraceReader.openDirectory, written.staticTrace]
  simp only [Option.bind_eq_bind, Option.bind_some, opened, threadCount, sameHeader, mapped,
    dictionary, SinucaTraceReader.withDict, SinucaTraceReader.openTrace, Option.pure_def]
  congr 1
  refine SinucaTraceReader.mk.injEq .. |>.mpr ⟨rfl, ?_, rfl, ?_⟩
  · funext k
    rw [block_dictionaryOf, List.length_map, filledDict, List.getD_eq_getElem?_getD,
      List.getElem?_map, List.getD_eq_getElem?_getD]
    cases blocks[k]? <;> rfl
  · funext tid
    rcases Nat.lt_or_ge tid threads.length with present | beyond
    · have thread := each tid (by simpa using present) (by omega) (garbage tid)
      rw [List.getElem?_eq_getElem (by omega : tid < opens.length)]
      simpa using thread
    · have none : threads.getD tid default = default := by
        rw [List.getD_eq_getElem?_getD, List.getElem?_eq_none beyond, Option.getD_none]
      rw [List.getElem?_eq_none (by omega : opens.length ≤ tid), none]
      rfl

end Opened

section Replay

variable {d : StaticDictionary} {dict : Nat → Nat → StaticInstructionInfo}
  (agrees : AgreesInside dict d)
include agrees

/-- A thread that follows its trace only looks inside the blocks. -/
theorem fetch_agrees {s : SinucaTraceReader} (dictionary : Dictionary d s) {tid : Nat}
    {trace : ThreadTrace d} {packets : List InstructionPacket}
    (follows : Follows trace packets (s.threadDataVec tid)) (ret : InstructionPacket) :
    (s.withDict dict).fetch ret tid =
      ((s.fetch ret tid).1, (s.fetch ret tid).2.1, (s.fetch ret tid).2.2.withDict dict) := by
  have same : ∀ (s' : SinucaTraceReader), s'.instructionDict = s.instructionDict →
      (s'.threadDataVec tid).currentInst <
        (d.block (s'.threadDataVec tid).currentBasicBlock).length →
      s'.SameInstruction dict tid := by
    intro s' unchanged bound
    rw [SinucaTraceReader.SameInstruction, unchanged, dictionary.instructions]
    exact agrees _ _ bound
  refine s.fetch_withDict dict tid ret (fun inside => same s rfl (follows.inside inside)) ?_
  intro s' found
  obtain ⟨r, outcome, left, _, _⟩ :=
    (s.setThread tid { s.threadDataVec tid with currentInst := 0 }).fetchBasicBlock_eq tid
      (by simpa using follows.dynamic)
      (by
        by_contra ended
        have done := follows.ended (by simpa using ended)
        rw [SinucaTraceReader.fetchBasicBlock, SinucaTraceReader.readRecord] at found
        simp only [SinucaTraceReader.setThread_same, DynamicTraceReader.readDynamicRecord_ended _
          (by simpa using ended : (s.threadDataVec tid).dynFile.reachedEnd = true)] at found
        cases found)
  rw [found] at outcome
  simp only [SinucaTraceReader.setThread_same, SinucaTraceReader.setThread_control] at outcome
  rcases replayed : replayEvents tid (s.threadDataVec tid).dynFile.pending s.toReplayControl with
    ⟨search, rest, c⟩
  rw [replayed] at outcome
  obtain ⟨present, rfl⟩ := Prod.mk.inj outcome
  cases search with
  | found bblIndex =>
    have expanded := replayEvents_expansion (d := d) _ _ _ _ _ _ replayed
    obtain ⟨_, record, member, block, rfl⟩ := expanded.found bblIndex rfl
    have bound : record.getBasicBlockIdentifier < d.blocks.length := by
      rcases trace.inRange record (follows.pending.subset member) with ⟨_, bound⟩ | event
      · exact bound
      · simp [block] at event
    refine same _ rfl ?_
    simp only [SinucaTraceReader.setThread_same, SinucaTraceReader.searched]
    rw [StaticDictionary.block, List.getD_eq_getElem?_getD, List.getElem?_eq_getElem bound,
      Option.getD_some]
    exact List.length_pos_iff.mpr (d.nonempty _ (List.getElem_mem bound))
  | stopped => cases present
  | ended => cases present

/-- The reader of a directory answers as the reader of the records does. -/
theorem replay_withDict (threads : List (ThreadTrace d)) (garbage : Nat → BitVec 64)
    (calls : List FetchCall) (inRange : ∀ call ∈ calls, call.tid < threads.length) :
    Machine.run replayStep ((SinucaTraceReader.openTrace d (threads.map ThreadTrace.files)
        garbage).withDict dict) calls =
      ((replayTraces threads garbage calls).1.withDict dict,
        (replayTraces threads garbage calls).2) := by
  induction calls using List.reverseRecOn with
  | nil => rfl
  | append_singleton calls call ih =>
    have earlier := fun c member => inRange c (List.mem_append_left _ member)
    have present := inRange call (List.mem_append_right _ (List.mem_singleton.mpr rfl))
    have replaying := replay_replaying threads garbage calls earlier
    have fetched := fetch_agrees agrees replaying.dictionary (replaying.follows call.tid present)
      call.ret
    have last : replayTraces threads garbage (calls ++ [call]) = _ :=
      Machine.run_concat replayStep _ calls call
    rw [Machine.run_concat, ih earlier, last]
    simp only [replayStep]
    rw [fetched]
    rfl

end Replay

end Sinuca3.Guarantees
