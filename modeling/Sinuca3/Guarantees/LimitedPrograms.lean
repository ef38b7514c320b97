import Sinuca3.Guarantees.InstructionLimit
import Sinuca3.Guarantees.WholeSimulation

/-!
# Programs stopped at their limit

A thread that comes to a block once the limit has been passed adds an abrupt end to every
trace and ends the application. The files hold what was recorded until then, and a simulation
of them ends like that of a program that ran to its end.
-/
namespace Sinuca3.Guarantees
open Sinuca3.Source Lib

section Stopping

/-- The loop over all threads, from one on, where none has ended. -/
theorem broadcast_rest (evType : BitVec 32) (front rest : List Pintool.ThreadData) (t : Pintool)
    (all : t.threadDataVec = front ++ rest) (undeleted : ∀ d ∈ rest, d.deleted = false) :
    (t.broadcast evType false (List.range' front.length rest.length)).2.1 =
      { t with threadDataVec :=
          front ++ rest.map fun d => (Pintool.addThreadEvent evType d).2 } := by
  induction rest generalizing front t with
  | nil =>
    rw [List.map_nil, ← all]
    rfl
  | cons d rest ih =>
    have here : t.threadDataVec[front.length]? = some d := by
      rw [all, List.getElem?_append_right (Nat.le_refl _), Nat.sub_self]
      rfl
    have added : (t.append front.length (Pintool.addThreadEvent evType)).2.1 =
        { t with threadDataVec := (front ++ [(Pintool.addThreadEvent evType d).2]) ++ rest } := by
      unfold Pintool.append
      rw [here]
      dsimp only
      rw [if_neg (by simp [undeleted d (List.mem_cons_self ..)]), all,
        List.set_append_right _ _ (Nat.le_refl _), Nat.sub_self, List.set_cons_zero,
        List.append_assoc]
      rfl
    have later := ih (front ++ [(Pintool.addThreadEvent evType d).2])
      { t with threadDataVec := (front ++ [(Pintool.addThreadEvent evType d).2]) ++ rest } rfl
      fun other member => undeleted other (List.mem_cons_of_mem d member)
    rw [List.length_append, List.length_singleton] at later
    rw [List.length_cons, List.range'_succ, Pintool.broadcast]
    dsimp only
    rw [Bool.false_and, if_neg (by decide), added, later, List.map_cons, List.append_assoc]
    rfl

/-- The abrupt end is added to every trace. -/
theorem broadcast_all (evType : BitVec 32) (t : Pintool)
    (undeleted : ∀ d ∈ t.threadDataVec, d.deleted = false) :
    (t.broadcast evType false (t.indices 0)).2.1 =
      { t with threadDataVec :=
          t.threadDataVec.map fun d => (Pintool.addThreadEvent evType d).2 } :=
  broadcast_rest evType [] t.threadDataVec t rfl undeleted

/-- Pin ends threads one after the other. -/
def threadFinis (order : List THREADID) : List ToolStep :=
  order.flatMap fun tid => [.call tid .onThreadFini, .resume tid]

theorem wasThreadCreated_congr {t t' : Pintool}
    (same : t'.threadDataVec.length = t.threadDataVec.length) (tid : THREADID) :
    t'.wasThreadCreated tid = t.wasThreadCreated tid := by
  rw [Pintool.wasThreadCreated, Pintool.wasThreadCreated, same]

theorem run_threadFinis (order : List THREADID) (t : Tool)
    (released : t.pin.tool.lockIsKept = false)
    (created : ∀ tid ∈ order, t.pin.tool.wasThreadCreated tid = true) :
    (Machine.run Tool.step t (threadFinis order)).1.pin.tool =
      order.foldl Pintool.onThreadFini t.pin.tool := by
  induction order generalizing t with
  | nil => rfl
  | cons tid order ih =>
    have one : ((t.step (.call tid .onThreadFini)).1.step (.resume tid)).1.pin.tool =
        t.pin.tool.onThreadFini tid := by
      simp only [Tool.step, Tool.pinStep, PinState.step, PinState.call, AnalysisCall.callback,
        created tid (List.mem_cons_self ..), if_true, PinState.setThread_threads,
        PinState.resume]
      rw [if_neg (by simp [PinState.setThread, released])]
      rfl
    have rest := ih ((t.step (.call tid .onThreadFini)).1.step (.resume tid)).1
      (by rw [one]; exact released) (by
        intro other member
        have same : (t.pin.tool.onThreadFini tid).threadDataVec.length =
            t.pin.tool.threadDataVec.length := List.length_modify ..
        rw [one, wasThreadCreated_congr same]
        exact created other (List.mem_cons_of_mem tid member))
    rw [one] at rest
    exact rest

/-- What the destructors leave of the data. -/
theorem foldl_onThreadFini (order : List THREADID) (t : Pintool) :
    (order.foldl Pintool.onThreadFini t).staticTrace = t.staticTrace ∧
      (order.foldl Pintool.onThreadFini t).threadDataVec.length = t.threadDataVec.length ∧
      ∀ i : Nat, (order.foldl Pintool.onThreadFini t).threadDataVec[i]? =
        t.threadDataVec[i]?.map fun d =>
          { d with deleted := d.deleted || i ∈ order.map BitVec.toNat } := by
  induction order generalizing t with
  | nil => exact ⟨rfl, rfl, fun i => by simp⟩
  | cons tid order ih =>
    obtain ⟨static, length, data⟩ := ih (t.onThreadFini tid)
    refine ⟨static, length.trans (List.length_modify ..), fun i => ?_⟩
    rw [List.foldl_cons, data i]
    change ((t.threadDataVec.modify tid.toNat _)[i]?).map _ = _
    rw [List.getElem?_modify]
    cases t.threadDataVec[i]? with
    | none => rfl
    | some d =>
      by_cases own : tid.toNat = i
      · simp [own]
      · simp [own, Ne.symm own]

end Stopping

/-- A program that is stopped at its limit. The threads that have started are between two
blocks, with all their accesses recorded, when one of them comes to a block and finds that
the limit has been passed; then Pin ends them all, in some order. -/
structure LimitedRun extends TracedRun where
  limited : knobNumberOfInstructions ≠ BitVec.allOnes 32
  resting : ∀ tid, toTracedRun.tool.pin.threads tid = .unborn ∨
    toTracedRun.tool.pin.threads tid = .running
  blocks : ∀ tid, calledBlocks tid inputs = (executions tid).map fun e =>
    (e.block.basicBlockIndex, e.block.numberInstInBasicBlock)
  reached : toTracedRun.tool.pin.tool.reachedMaximum = true
  next : THREADID
  running : toTracedRun.tool.pin.threads next = .running
  bblId : BitVec 32
  numInst : BitVec 32
  order : List THREADID
  once : order.Nodup
  complete : ∀ tid, tid ∈ order ↔ toTracedRun.tool.pin.threads tid = .running

namespace LimitedRun

variable (p : LimitedRun)

/-- The tool when the process is over. -/
def stopped : Tool :=
  (Machine.run Tool.step p.tool
    (.call p.next (.appendToDynamicTrace p.bblId p.numInst) :: .resume p.next ::
      threadFinis p.order)).1

theorem not_ended (tid : THREADID) : p.tool.pin.threads tid ≠ .ended := by
  rcases p.resting tid with unborn | running
  · rw [unborn]
    simp
  · rw [running]
    simp

/-- No thread is about to append a record. -/
theorem nothing_pending (tid : THREADID) :
    pendingBlocks (p.tool.pin.threads tid) = [] ∧ pendingCalls (p.tool.pin.threads tid) = [] := by
  rcases p.resting tid with same | same <;> rw [same] <;> exact ⟨rfl, rfl⟩

theorem undeleted : ∀ d ∈ p.tool.pin.tool.threadDataVec, d.deleted = false := by
  intro d member
  obtain ⟨i, present, same⟩ := List.mem_iff_getElem.mp member
  have known := (p.opened_of_present (List.getElem?_eq_getElem present)).2.2.2
  rw [same] at known
  exact Bool.eq_false_iff.mpr fun deleted => p.not_ended _ (known.mp deleted)

theorem wasThreadCreated {tid : THREADID} (running : p.tool.pin.threads tid = .running) :
    p.tool.pin.tool.wasThreadCreated tid = true := by
  have registered := (p.tracing.ordered.registered tid).mp (by rw [running]; simp)
  exact (p.tracing.ordered.wasThreadCreated_iff tid).mpr (Nat.ne_of_lt registered)

/-- The thread that comes to the block stops the application. -/
theorem stopped_tool :
    p.stopped.pin.tool = p.order.foldl Pintool.onThreadFini
      { p.tool.pin.tool with threadDataVec := p.tool.pin.tool.threadDataVec.map fun d =>
          (Pintool.addThreadEvent threadEventAbruptEnd d).2 } := by
  have released := p.tracing.released
  have atLimit : ((p.tool.step (.call p.next (.appendToDynamicTrace p.bblId p.numInst))).1.step
      (.resume p.next)).1.pin.tool =
        { p.tool.pin.tool with threadDataVec := p.tool.pin.tool.threadDataVec.map fun d =>
            (Pintool.addThreadEvent threadEventAbruptEnd d).2 } := by
    rw [← broadcast_all threadEventAbruptEnd p.tool.pin.tool p.undeleted]
    simp only [Tool.step, Tool.pinStep, PinState.step, PinState.call, AnalysisCall.callback,
      p.wasThreadCreated p.running, if_true, PinState.setThread_threads, PinState.resume]
    rw [if_neg (by simp [PinState.setThread, released])]
    change (p.tool.pin.tool.appendToDynamicTrace p.next p.bblId p.numInst).1 = _
    rw [Pintool.appendToDynamicTrace, if_pos p.reached]
  have finis := run_threadFinis p.order
    ((p.tool.step (.call p.next (.appendToDynamicTrace p.bblId p.numInst))).1.step
      (.resume p.next)).1 (by rw [atLimit]; exact released) (by
        intro tid member
        rw [atLimit, wasThreadCreated_congr (List.length_map _)]
        exact p.wasThreadCreated ((p.complete tid).mp member))
  rw [atLimit] at finis
  exact finis

/-- The data of each thread, with the abrupt end in its trace. -/
theorem data_of_stopped {i : Nat} {d : Pintool.ThreadData}
    (present : p.stopped.pin.tool.threadDataVec[i]? = some d) :
    ∃ before, p.tool.pin.tool.threadDataVec[i]? = some before ∧
      d = { (Pintool.addThreadEvent threadEventAbruptEnd before).2 with deleted := true } := by
  rw [p.stopped_tool, (foldl_onThreadFini p.order _).2.2 i] at present
  dsimp only at present
  rw [List.getElem?_map, Option.map_map, Option.map_eq_some_iff] at present
  obtain ⟨before, found, rfl⟩ := present
  refine ⟨before, found, ?_⟩
  obtain ⟨_, own, born, _⟩ := p.opened_of_present found
  have listed : before.openedFor ∈ p.order :=
    (p.complete _).mpr ((p.resting _).resolve_left born)
  have inside : i ∈ p.order.map BitVec.toNat := List.mem_map.mpr ⟨_, listed, own⟩
  simp [inside]

end LimitedRun

section Traces

/-- Behind some blocks there is only the abrupt end. -/
theorem plain_abruptEnd {records : List DynamicTraceRecord}
    (quiet : ∀ r ∈ records, r.getRecordType ≠ .threadEvent) :
    Plain (records ++ [.threadEvent threadEventAbruptEnd]) := by
  intro front r back split event
  rcases List.eq_nil_or_concat back with rfl | ⟨back, last, rfl⟩
  · obtain ⟨_, same⟩ := List.append_inj' split rfl
    cases same
    exact ⟨rfl, rfl⟩
  · rw [List.concat_eq_append, ← List.cons_append, ← List.append_assoc] at split
    obtain ⟨same, _⟩ := List.append_inj' split rfl
    exact absurd event (quiet r (by rw [same]; simp))

/-- The writer of a trace, given the abrupt end. -/
theorem DynamicTraced.abruptEnd {events : Prop} {blocks : List (BitVec 32 × BitVec 32)}
    {d : Pintool.ThreadData} (before : DynamicTraced events blocks d.dynamicTrace) :
    ∃ records : List DynamicTraceRecord,
      let w := (Pintool.addThreadEvent threadEventAbruptEnd d).2.dynamicTrace
      w.Holds DynamicTraceRecord.codec (records ++ [.threadEvent threadEventAbruptEnd]) ∧
        OwnHeader w ∧ blockIds records = blocks.map (fun block => block.1.toNat) ∧
        ∀ r ∈ records, r.getRecordType = .basicBlockIdentifier ∨
          r.getRecordType = .threadEvent ∧ events := by
  obtain ⟨records, given, ids, known⟩ := before.given
  have after := call_given given (.addThreadEvent threadEventAbruptEnd)
  have header := addRecord_header DynamicTraceRecord.codec d.dynamicTrace
    { data := threadEventAbruptEnd, recordType := 1 }
  refine ⟨records, after.holds, ?_, ids, known⟩
  rw [OwnHeader, show (Pintool.addThreadEvent threadEventAbruptEnd d).2.dynamicTrace.header =
    d.dynamicTrace.header from header]
  exact before.header

variable {p : LimitedRun}

/-- The data of a thread when the process is over. -/
theorem LimitedRun.thread_closed (fits : p.Fits) {i : Nat} {d : Pintool.ThreadData}
    (present : p.stopped.pin.tool.threadDataVec[i]? = some d) :
    ∃ trace : ThreadTrace p.dictionary, ClosedFiles trace.files d ∧
      trace.instructions = p.executed i ∧ (¬ Eventful p.inputs → Plain trace.records) := by
  obtain ⟨before, found, rfl⟩ := p.data_of_stopped present
  have traced := p.tracing.data i before found
  obtain ⟨noBlocks, noCalls⟩ := p.nothing_pending (BitVec.ofNat 32 i)
  obtain ⟨done, dynamic, blocks⟩ := traced.dynamic
  obtain ⟨calls, memory, groups⟩ := traced.memory
  rw [noBlocks, List.append_nil] at blocks
  rw [noCalls, List.append_nil] at groups
  obtain ⟨records, holds, header, ids, known⟩ := dynamic.abruptEnd
  have indices : blockIds (records ++ [.threadEvent threadEventAbruptEnd]) =
      (p.executions (BitVec.ofNat 32 i)).map fun e => e.block.basicBlockIndex.toNat := by
    rw [blockIds_append, ids, blocks, p.blocks, List.map_map]
    exact List.append_nil _
  obtain ⟨trace, files, instructions⟩ := TracedRun.exists_trace fits i indices (by
    intro r member
    rcases List.mem_append.mp member with early | last
    · exact (known r early).imp_right And.left
    · cases List.mem_singleton.mp last
      exact .inr rfl)
  refine ⟨trace, ⟨rfl, ?_, header, ?_, memory.header⟩, instructions, fun quiet => ?_⟩
  · rw [files]
    exact holds
  · rw [files, ← groups]
    exact memory.holds
  · have same : trace.records = records ++ [.threadEvent threadEventAbruptEnd] :=
      congrArg ThreadFiles.dynamic files
    rw [same]
    refine plain_abruptEnd fun r member event => ?_
    rcases known r member with block | ⟨_, eventful⟩
    · rw [event] at block
      cases block
    · exact quiet eventful

/-- The directory of a program that was stopped is opened as the reader of its traces. -/
theorem LimitedRun.exists_traces (fits : p.Fits) (garbage : Nat → BitVec 64) :
    ∃ traces : List (ThreadTrace p.dictionary), traces.length = p.threadCount ∧
      (∀ tid (present : tid < traces.length), traces[tid].instructions = p.executed tid ∧
        (¬ Eventful p.inputs → Plain traces[tid].records)) ∧
      SinucaTraceReader.openDirectory p.stopped.directory garbage =
        some ((SinucaTraceReader.openTrace p.dictionary (traces.map ThreadTrace.files)
          garbage).withDict (filledDict p.recordedBlocks).instruction) := by
  obtain ⟨static, length, _⟩ := foldl_onThreadFini p.order
    { p.tool.pin.tool with threadDataVec := p.tool.pin.tool.threadDataVec.map fun d =>
        (Pintool.addThreadEvent threadEventAbruptEnd d).2 }
  rw [← p.stopped_tool] at static length
  refine TracedRun.exists_traces fits static (length.trans (List.length_map _)) ?_ _
    (fun _ _ present => LimitedRun.thread_closed fits present) garbage
  intro i d present
  obtain ⟨before, found, rfl⟩ := p.data_of_stopped present
  exact (p.opened_of_present found).2.1

end Traces

section Ending

variable {d : StaticDictionary}

/-- The abrupt end is found by a thread of which nothing is left. -/
theorem abruptEnd_step {threads : List (ThreadTrace d)}
    (plain : ∀ trace ∈ threads, Plain trace.records) {s : SinucaTraceReader}
    {log : List FetchReturn} (before : Replaying threads s log)
    (found : s.reachedAbruptEnd = true →
      ∃ tid < threads.length, remaining d (s.threadDataVec tid) = [])
    (call : FetchCall) (inRange : call.tid < threads.length) :
    (replayStep s call).1.reachedAbruptEnd = true →
      ∃ tid < threads.length, remaining d ((replayStep s call).1.threadDataVec tid) = [] := by
  have follows := before.follows call.tid inRange
  have cases := s.fetch_cases call.ret call.tid follows.dynamic
  have searched := replayEvents_plain (plain _ (List.getElem_mem inRange)) follows.pending call.tid
    s.toReplayControl
  simp only [replayStep]
  generalize s.fetch call.ret call.tid = result at cases
  cases cases with
  | executionEnded finished => exact found
  | idle going waiting => exact found
  | inside going running awake block =>
    obtain ⟨t, same, _⟩ := s.fetchInstruction_keepsRecords call.ret call.tid
    rw [same]
    exact fun abrupt => absurd ((going_iff.mp going).1.symm.trans abrupt) Bool.false_ne_true
  | missing going running awake outside search rest c replayed none r left fresh ended =>
    rcases searched with ⟨_, missed⟩ | ⟨_, missed⟩ | ⟨bblIndex, rest', hit⟩
    · rw [missed] at replayed
      cases replayed
      exact fun abrupt => absurd ((going_iff.mp going).1.symm.trans abrupt) Bool.false_ne_true
    · rw [missed] at replayed
      cases replayed
      refine fun _ => ⟨call.tid, inRange, ?_⟩
      rw [SinucaTraceReader.setThread_same, remaining]
      dsimp only
      rw [if_neg (by simp [outside]), left]
      rfl
    · rw [hit] at replayed
      cases replayed
      cases none
  | entered going running awake outside bblIndex rest c replayed r left fresh running' =>
    rcases searched with ⟨_, missed⟩ | ⟨_, missed⟩ | ⟨bblIndex', rest', hit⟩
    · rw [missed] at replayed
      cases replayed
    · rw [missed] at replayed
      cases replayed
    · rw [hit] at replayed
      cases replayed
      obtain ⟨t, same, _⟩ := ((s.setControl s.toReplayControl).setThread call.tid
        { s.threadDataVec call.tid with
          dynFile := r, currentBasicBlock := bblIndex, currentInst := 0
          isInsideBasicBlock := true }).fetchInstruction_keepsRecords call.ret call.tid
      rw [same]
      exact fun abrupt => absurd ((going_iff.mp going).1.symm.trans abrupt) Bool.false_ne_true

/-- Without events, the execution ends once a thread has received all there is of it. -/
theorem quiet_replay_ends {threads : List (ThreadTrace d)}
    (plain : ∀ trace ∈ threads, Plain trace.records) (started : threads ≠ [])
    (garbage : Nat → BitVec 64) (calls : List FetchCall)
    (inRange : ∀ call ∈ calls, call.tid < threads.length)
    (ended : (replayTraces threads garbage calls).1.hasExecutionEnded = true) :
    ∃ tid, ∃ present : tid < threads.length,
      (received tid (replayTraces threads garbage calls).2).map contents =
        threads[tid].instructions := by
  have replaying := replay_replaying threads garbage calls inRange
  have found := (Machine.run_induction_of_meets replayStep
    (fun _ call => call.tid < threads.length)
    (P := fun s _ log => Replaying threads s log ∧ (s.reachedAbruptEnd = true →
      ∃ tid < threads.length, remaining d (s.threadDataVec tid) = []))
    ⟨replaying_openTrace threads garbage, fun abrupt => Bool.noConfusion abrupt⟩
    (fun s _ log call before here => ⟨step_preserves_replaying threads s log before.1 call here,
      abruptEnd_step plain before.1 before.2 call here⟩)
    calls (Machine.meets_of_forall replayStep _ calls inRange)).2
  unfold SinucaTraceReader.hasExecutionEnded at ended
  split at ended
  · rename_i abrupt
    obtain ⟨tid, present, none⟩ := found abrupt
    obtain ⟨rest, whole, length⟩ := (replaying.follows tid present).contents
    have nothing := length.trans (congrArg List.length none)
    refine ⟨tid, present, ?_⟩
    rw [← whole, List.eq_nil_of_length_eq_zero nothing, List.append_nil]
  · have first := List.length_pos_iff.mpr started
    exact ⟨0, first, (replaying.follows 0 first).all_contents ended⟩

end Ending

section OneThread

/-- The thread goes through its block once and comes to it again. -/
def limitedInputs : List ToolStep :=
  [.onThreadStart 0 true true, .initInstrumentation,
    .onTrace 0 ⟨some (octets "main"), [loadBlock]⟩,
    .call 0 (.appendToDynamicTrace 0 2), .resume 0,
    .call 0 (.appendToMemTrace [loadAccess]), .resume 0, .resume 0, .resume 0]

theorem behaves_limited : Behaves [] false 1 limitedInputs := by
  refine ⟨⟨rfl, rfl, rfl, rfl⟩, trivial, ?_, rfl,
    ⟨orderly_resume rfl rfl, withinLimit_of_below rfl⟩, rfl,
    ⟨orderly_resume rfl rfl, ?_⟩, ⟨orderly_resume rfl rfl, ?_⟩,
    ⟨orderly_resume rfl rfl, ?_⟩, trivial⟩
  · intro bbl listed
    cases List.mem_singleton.mp listed
    decide
  all_goals exact fun _ _ inside => nomatch inside

theorem unborn_limited {tid : THREADID} (other : tid ≠ 0) :
    (traceProgram [] false 1 limitedInputs).1.pin.threads tid = .unborn := by
  refine not_not.mp fun born => ?_
  have first : tid.toNat < 1 :=
    ((tracing_traceProgram behaves_limited).ordered.registered tid).mp born
  exact other (BitVec.eq_of_toNat_eq (Nat.lt_one_iff.mp first))

theorem running_limited :
    (traceProgram [] false 1 limitedInputs).1.pin.threads 0 = .running := rfl

theorem reached_limited :
    (traceProgram [] false 1 limitedInputs).1.pin.tool.reachedMaximum = true := by
  have counter : (traceProgram [] false 1 limitedInputs).1.pin.tool.numberOfExecInst = 2 := rfl
  have knob : (traceProgram [] false 1 limitedInputs).1.pin.tool.knobNumberOfInstructions = 1 :=
    rfl
  rw [Pintool.reachedMaximum, counter, knob]
  decide

theorem resting_limited (tid : THREADID) :
    (traceProgram [] false 1 limitedInputs).1.pin.threads tid = .unborn ∨
      (traceProgram [] false 1 limitedInputs).1.pin.threads tid = .running := by
  by_cases main : tid = 0
  · subst main
    exact .inr running_limited
  · exact .inl (unborn_limited main)

theorem complete_limited (tid : THREADID) :
    tid ∈ [(0 : THREADID)] ↔
      (traceProgram [] false 1 limitedInputs).1.pin.threads tid = .running := by
  by_cases main : tid = 0
  · subst main
    exact ⟨fun _ => running_limited, fun _ => List.mem_singleton.mpr rfl⟩
  · refine ⟨fun member => absurd (List.mem_singleton.mp member) main, fun running => ?_⟩
    rw [unborn_limited main] at running
    cases running

theorem accesses_limited (tid : THREADID) :
    calledAccesses tid limitedInputs =
      (oneThread.executions tid).flatMap Execution.accesses :=
  oneThread.accesses tid

theorem instrumented_limited (tid : THREADID) : ∀ e ∈ oneThread.executions tid,
    e.block ∈ (traceProgram [] false 1 limitedInputs).1.codeCache :=
  oneThread.instrumented tid

theorem hasLimit_limited : (1 : BitVec 32) ≠ BitVec.allOnes 32 := by decide

theorem once_limited : [(0 : THREADID)].Nodup := List.nodup_singleton 0

def limitedThread : LimitedRun where
  intrinsics := []
  knobForceInstrumentation := false
  knobNumberOfInstructions := 1
  inputs := limitedInputs
  behaves := behaves_limited
  executions := oneThread.executions
  instrumented := instrumented_limited
  accesses := accesses_limited
  limited := hasLimit_limited
  resting := resting_limited
  blocks := oneThread.blocks
  reached := reached_limited
  next := 0
  running := running_limited
  bblId := 0
  numInst := 2
  order := [0]
  once := once_limited
  complete := complete_limited

theorem fits_limited : limitedThread.Fits where
  registers := fits_oneThread.registers
  instructions := by decide
  threads := by decide
  packets := fits_oneThread.packets

end OneThread

section Limited

/-- What is recorded of a program passes the limit, by less than a block. -/
theorem LimitedRun.totalInstructions_bounds (p : LimitedRun) :
    p.knobNumberOfInstructions.toNat < p.totalInstructions ∧
      p.totalInstructions ≤ p.knobNumberOfInstructions.toNat + 65535 := by
  obtain ⟨_, bounded, reached⟩ := TracedRun.counter_eq p.blocks p.limited
    fun tid => (p.nothing_pending tid).1
  exact ⟨reached.mp p.reached, bounded⟩

/-- Every program that fits and is stopped at its limit, with any interleaving of its threads:
what the threads executed is recorded until the limit is passed, by less than a block, and
of that each receives a prefix under any interleaving of calls. Without thread events the
execution ends once one of them has received everything. -/
theorem limited_program_replays (p : LimitedRun) (fits : p.Fits) (garbage : Nat → BitVec 64) :
    p.knobNumberOfInstructions.toNat < p.totalInstructions ∧
      p.totalInstructions ≤ p.knobNumberOfInstructions.toNat + 65535 ∧
      ∃ s, SinucaTraceReader.openDirectory p.stopped.directory garbage = some s ∧
        ∀ calls : List FetchCall, (∀ call ∈ calls, call.tid < p.threadCount) →
          let run := Machine.run replayStep s calls
          (∀ tid < p.threadCount, (received tid run.2).map contents <+: p.executed tid) ∧
          (¬ Eventful p.inputs → run.1.hasExecutionEnded = true →
            ∃ tid < p.threadCount, (received tid run.2).map contents = p.executed tid) := by
  obtain ⟨traces, length, known, opened⟩ := LimitedRun.exists_traces fits garbage
  refine ⟨p.totalInstructions_bounds.1, p.totalInstructions_bounds.2, _, opened,
    fun calls inRange => ?_⟩
  have replays := TracedRun.opened_replays length (fun tid present => (known tid present).1)
    garbage calls inRange
  have inside : ∀ call ∈ calls, call.tid < traces.length := by rwa [length]
  have agrees : AgreesInside (filledDict p.recordedBlocks).instruction p.dictionary :=
    agreesInside_filledDict _ _
  refine ⟨fun tid present => (replays tid present).1, fun quiet => ?_⟩
  rw [replay_withDict agrees traces garbage calls inside]
  intro ended
  have plain : ∀ trace ∈ traces, Plain trace.records := by
    intro trace member
    obtain ⟨tid, present, rfl⟩ := List.mem_iff_getElem.mp member
    exact (known tid present).2 quiet
  have started : traces ≠ [] := by
    have registered := (p.tracing.ordered.registered p.next).mp (by rw [p.running]; simp)
    have count : p.next.toNat < p.threadCount := registered
    exact List.length_pos_iff.mp (by omega)
  obtain ⟨tid, present, all⟩ := quiet_replay_ends plain started garbage calls inside ended
  exact ⟨tid, by rwa [← length], all.trans (known tid present).1⟩

theorem limitedThread_replays : ∃ s,
    SinucaTraceReader.openDirectory limitedThread.stopped.directory (fun _ => 0) = some s ∧
      (received 0 (Machine.run replayStep s [⟨default, 0⟩]).2).map contents <+:
        limitedThread.executed 0 := by
  obtain ⟨_, _, s, opened, delivered⟩ :=
    limited_program_replays limitedThread fits_limited fun _ => 0
  exact ⟨s, opened, (delivered [⟨default, 0⟩] (by decide)).1 0 (by decide)⟩

/-- A program of one thread that is stopped at its limit, from its instrumentation to the end
of its simulation: the core receives exactly what was recorded. -/
theorem limited_program_simulated (p : LimitedRun) (fits : p.Fits) (alone : p.threadCount = 1)
    (quiet : ¬ Eventful p.inputs) (garbage : Nat → BitVec 64) (bound : Nat)
    (buffered : Nat → InstructionPacket) :
    p.knobNumberOfInstructions.toNat < (p.executed 0).length ∧
      (p.executed 0).length ≤ p.knobNumberOfInstructions.toNat + 65535 ∧
      ∃ reader, SinucaTraceReader.openDirectory p.stopped.directory garbage = some reader ∧
        ∀ cycles, (p.executed 0).length + 2 ≤ cycles → ∃ s log,
          SimpleTest.simulate sinucaTraceReader bound cycles reader buffered =
            some (false, s, log) ∧ SimulationEnded (p.executed 0) s log := by
  have total : p.totalInstructions = (p.executed 0).length := by
    rw [TracedRun.totalInstructions, alone]
    exact Nat.add_zero _
  obtain ⟨least, bounded⟩ := p.totalInstructions_bounds
  rw [total] at least bounded
  obtain ⟨traces, length, known, opened⟩ := LimitedRun.exists_traces fits garbage
  rw [alone] at length
  obtain ⟨trace, rfl⟩ := List.length_eq_one_iff.mp length
  obtain ⟨instructions, plain⟩ := known 0 Nat.one_pos
  have executes : p.executed 0 ≠ [] :=
    List.length_pos_iff.mp (Nat.lt_of_le_of_lt (Nat.zero_le _) least)
  exact ⟨least, bounded, _, opened, fun cycles =>
    TracedRun.opened_simulates instructions (plain quiet) executes garbage bound buffered⟩

theorem limitedThread_simulated : ∃ reader,
    SinucaTraceReader.openDirectory limitedThread.stopped.directory (fun _ => 0) = some reader ∧
      ∃ s log, SimpleTest.simulate sinucaTraceReader 0 4 reader (fun _ => default) =
          some (false, s, log) ∧ s.core.numFetchedInstructions = 2 := by
  obtain ⟨_, _, reader, opened, simulated⟩ := limited_program_simulated limitedThread fits_limited
    rfl (by simp [Eventful, limitedThread, limitedInputs]) (fun _ => 0) 0 fun _ => default
  obtain ⟨s, log, ends, ended⟩ := simulated 4 (Nat.le_refl 4)
  exact ⟨reader, opened, s, log, ends, ended.numFetchedInstructions⟩

end Limited

end Sinuca3.Guarantees
