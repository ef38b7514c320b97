import Mathlib.Algebra.BigOperators.Group.Finset.Piecewise
import Mathlib.Algebra.Order.BigOperators.Group.Finset
import Sinuca3.Source.Engine.EngineRuns
import Sinuca3.Source.Tracer.BlockSearch
import Sinuca3.Source.Tracer.FileHeader
import Sinuca3.Guarantees.ReplayRanges

/-!
# Remaining instructions

The heartbeat subtracts what the engine counts as fetched from what the headers
announce. The reader hands out no more instructions than a thread's records stand
for, but the look-ahead counts every answer that neither ends nor fails: a core whose
thread has nothing to execute is counted too, once for each call. `starves` tells from
the state of the reader which calls those are.
-/
namespace Sinuca3.Guarantees
open Sinuca3.Source Lib

/-- The trace of one thread, with the header of its dynamic file. -/
structure CountedTrace (d : StaticDictionary) where
  header : FileHeader
  files : ThreadFiles
  known : ∀ r ∈ files.dynamic, r.getRecordType = .basicBlockIdentifier →
    r.getBasicBlockIdentifier < d.blocks.length
  counted : header.totalExecutedInstructions.toNat = (expansion d files.dynamic).length

/-- Whether the records of a search raise the failure flag. -/
def raisesFailure : Int → List DynamicTraceRecord → Bool
  | _, [] => false
  | criticalCont, r :: rest =>
    match r.getRecordType with
    | .basicBlockIdentifier => false
    | .unknown _ => true
    | .threadEvent =>
      match r.getThreadEvent with
      | .criticalStart => raisesFailure (criticalCont + 1) rest
      | .criticalEnd => decide (criticalCont ≤ 0) || raisesFailure (criticalCont - 1) rest
      | _ => raisesFailure criticalCont rest

def holdsBlock (records : List DynamicTraceRecord) : Bool :=
  records.any fun r => decide (r.getRecordType = .basicBlockIdentifier)

/-- The program goes on, but the thread is done or asleep, or there is neither a block
nor a fault among the records up to where its search stops. -/
def starves (s : SinucaTraceReader) (tid : Nat) : Bool :=
  let seen := searchedRecords s.totalThreads s.barrierCont (s.pending tid)
  !s.hasExecutionEnded &&
    ((s.threadDataVec tid).dynFile.hasReachedEnd || s.isThreadSleeping tid ||
      (!(s.threadDataVec tid).isInsideBasicBlock && !holdsBlock seen &&
        !(s.fetchFailed || raisesFailure s.criticalCont seen)))

/-- What a search finds, and whether it leaves the flag up, read off its records. -/
structure SearchRead (records : List DynamicTraceRecord) (c : ReplayControl) (search : BlockSearch)
    (c' : ReplayControl) : Prop where
  block : search.missing = !holdsBlock (searchedRecords c.totalThreads c.barrierCont records)
  failed : c'.fetchFailed = (c.fetchFailed ||
    raisesFailure c.criticalCont (searchedRecords c.totalThreads c.barrierCont records))

theorem SearchRead.cons {records : List DynamicTraceRecord} {c c' c'' : ReplayControl}
    {search : BlockSearch} {r : DynamicTraceRecord} (later : SearchRead records c' search c'')
    (here : searchedRecords c.totalThreads c.barrierCont (r :: records) =
      r :: searchedRecords c'.totalThreads c'.barrierCont records)
    (event : r.getRecordType ≠ .basicBlockIdentifier)
    (failed : (c'.fetchFailed || raisesFailure c'.criticalCont
        (searchedRecords c'.totalThreads c'.barrierCont records)) =
      (c.fetchFailed || raisesFailure c.criticalCont
        (r :: searchedRecords c'.totalThreads c'.barrierCont records))) :
    SearchRead (r :: records) c search c'' := by
  refine ⟨?_, ?_⟩
  · rw [here, later.block]
    simp [holdsBlock, event]
  · rw [here, later.failed, failed]

theorem replayEvents_read (tid : Nat) (records : List DynamicTraceRecord) (c : ReplayControl) :
    SearchRead records c (replayEvents tid records c).1 (replayEvents tid records c).2.2 := by
  induction records generalizing c with
  | nil => exact ⟨rfl, by simp [searchedRecords, raisesFailure, replayEvents]⟩
  | cons r records ih =>
    have step := replayEvents_cons tid r records c
    generalize replayEvents tid (r :: records) c = result at step ⊢
    cases step with
    | block kind here =>
      constructor
      · simp [here, holdsBlock, kind, BlockSearch.missing]
      · simp [here, raisesFailure, kind]
    | unknown code kind here =>
      constructor
      · simp [here, holdsBlock, kind, BlockSearch.missing]
      · simp [here, raisesFailure, kind]
    | stops kind e code c' handled here =>
      refine ⟨by simp [here, holdsBlock, kind, BlockSearch.missing], ?_⟩
      rw [here]
      cases e with
      | abruptEnd =>
        cases handled
        simp [raisesFailure, kind, code]
      | unknown other =>
        cases handled
        simp [raisesFailure, kind, code]
      | barrierSync =>
        simp only [ReplayControl.handleEvent] at handled
        split at handled <;> cases handled
        simp [raisesFailure, kind, code]
      | criticalStart => cases handled
      | criticalEnd =>
        obtain ⟨_, ends, _⟩ := handleEvent_criticalEnd c tid
        rw [ends] at handled
        cases handled
    | goesOn kind e code c' handled here =>
      refine (ih c').cons here (by simp [kind]) ?_
      cases e with
      | abruptEnd => cases handled
      | unknown other => cases handled
      | barrierSync =>
        simp only [ReplayControl.handleEvent] at handled
        split at handled <;> cases handled
        simp [raisesFailure, kind, code]
      | criticalStart =>
        cases handled
        simp [raisesFailure, kind, code]
      | criticalEnd =>
        obtain ⟨_, ends, _, _, count, failed⟩ := handleEvent_criticalEnd c tid
        rw [ends] at handled
        cases handled
        simp [raisesFailure, kind, code, count, failed, Bool.or_assoc]

/-- A call is answered with `nop` exactly where it starves. -/
theorem fetch_nop_iff (s : SinucaTraceReader) (ret : InstructionPacket) (tid : Nat)
    (consistent : (s.threadDataVec tid).dynFile.Consistent) :
    (s.fetch ret tid).1 = .nop ↔ starves s tid = true := by
  have cases := s.fetch_cases ret tid consistent
  generalize s.fetch ret tid = result at cases ⊢
  cases cases with
  | executionEnded finished => simp [starves, finished]
  | idle going waiting =>
    rcases waiting with ended | asleep
    · simp [starves, going, DynamicTraceReader.hasReachedEnd, ended]
    · simp [starves, going, SinucaTraceReader.isThreadSleeping, asleep]
  | inside going running awake block =>
    simp [starves, running, awake, block, SinucaTraceReader.fetchInstruction_ne_nop,
      DynamicTraceReader.hasReachedEnd, SinucaTraceReader.isThreadSleeping]
  | missing going running awake outside search rest c replayed none =>
    have read := replayEvents_read tid (s.threadDataVec tid).dynFile.pending s.toReplayControl
    rw [replayed] at read
    have block : search.missing = _ := read.block
    have failed : c.fetchFailed = _ := read.failed
    rw [none] at block
    have hungry : starves s tid = !c.fetchFailed := by
      simp [starves, going, running, awake, outside, failed, SinucaTraceReader.pending,
        DynamicTraceReader.hasReachedEnd, SinucaTraceReader.isThreadSleeping, ← block]
    rw [hungry]
    cases c.fetchFailed <;> simp
  | entered going running awake outside bblIndex rest c replayed =>
    have block :=
      (replayEvents_read tid (s.threadDataVec tid).dynFile.pending s.toReplayControl).block
    rw [replayed] at block
    have found : holdsBlock (searchedRecords s.totalThreads s.barrierCont
        (s.threadDataVec tid).dynFile.pending) = true := by
      simpa [BlockSearch.missing] using block
    simp [starves, SinucaTraceReader.fetchInstruction_ne_nop, running, awake, found,
      SinucaTraceReader.pending, DynamicTraceReader.hasReachedEnd,
      SinucaTraceReader.isThreadSleeping]

section Counting

variable {d : StaticDictionary}

/-- A thread that has been handed `count` of the instructions its records stand for. -/
structure CountedThread (d : StaticDictionary) (records : List DynamicTraceRecord) (count : Nat)
    (t : ThreadData) : Prop where
  dynamic : t.dynFile.Consistent
  pending : t.dynFile.pending <:+ records
  inside : t.isInsideBasicBlock = true → t.currentInst < (d.block t.currentBasicBlock).length
  count : count + (remaining d t).length = (expansion d records).length

theorem CountedThread.enter {records : List DynamicTraceRecord} {count : Nat} {t : ThreadData}
    (before : CountedThread d records count t)
    (known : ∀ r ∈ records, r.getRecordType = .basicBlockIdentifier →
      r.getBasicBlockIdentifier < d.blocks.length)
    (outside : t.isInsideBasicBlock = false) {bblIndex : Nat} {rest : List DynamicTraceRecord}
    (expanded : SearchExpansion d t.dynFile.pending rest (.found bblIndex))
    {r : DynamicTraceReader} (left : r.pending = rest) (fresh : r.Consistent) :
    CountedThread d records count { t with
      dynFile := r, currentBasicBlock := bblIndex, currentInst := 0,
      isInsideBasicBlock := true } := by
  obtain ⟨split, record, member, block, rfl⟩ := expanded.found bblIndex rfl
  have count := before.count
  simp only [remaining, outside, Bool.false_eq_true, if_false, List.nil_append, split] at count
  refine ⟨fresh, left ▸ expanded.suffix.trans before.pending, fun _ => ?_, ?_⟩
  · exact block_pos (known record (before.pending.subset member) block)
  · simpa [remaining, left] using count

theorem CountedThread.miss {records : List DynamicTraceRecord} {count : Nat} {t : ThreadData}
    (before : CountedThread d records count t) (outside : t.isInsideBasicBlock = false)
    {search : BlockSearch} {rest : List DynamicTraceRecord}
    (expanded : SearchExpansion d t.dynFile.pending rest search) (none : search.missing = true)
    {r : DynamicTraceReader} (left : r.pending = rest) (fresh : r.Consistent) :
    CountedThread d records count { t with dynFile := r, currentInst := 0 } := by
  have count := before.count
  simp only [remaining, outside, Bool.false_eq_true, if_false, List.nil_append,
    expanded.missed none] at count
  refine ⟨fresh, left ▸ expanded.suffix.trans before.pending, by simp [outside], ?_⟩
  simpa [remaining, outside, left] using count

/-- The tail of `Fetch` hands out one instruction of those that remain, unless its memory
operations are missing. -/
theorem fetchInstruction_counted (s : SinucaTraceReader) (ret : InstructionPacket) (tid : Nat)
    (dictionary : Dictionary d s) {records : List DynamicTraceRecord} {count : Nat}
    (before : CountedThread d records count (s.threadDataVec tid))
    (inside : (s.threadDataVec tid).isInsideBasicBlock = true) :
    ∃ t, (s.fetchInstruction ret tid).2.2 = s.setThread tid t ∧
      CountedThread d records
        (count + if (s.fetchInstruction ret tid).1 = .ok then 1 else 0) t := by
  have bound := before.inside inside
  have whole := before.count
  rw [remaining_inside _ inside bound, List.length_cons] at whole
  -- Stepping past the instruction, with whatever memory reader.
  have stepped : ∀ m : MemoryTraceReader, ∃ t,
      (s.setThread tid { s.threadDataVec tid with memFile := m }).countInstruction tid =
        s.setThread tid t ∧ CountedThread d records (count + 1) t := by
    intro m
    obtain ⟨t, counted, sameDynamic, _, inside', remaining'⟩ :=
      countInstruction_eq (d := d) (s.setThread tid { s.threadDataVec tid with memFile := m }) tid
        ⟨dictionary.sizes, dictionary.instructions⟩ (by simpa using inside)
    simp only [SinucaTraceReader.setThread_same] at sameDynamic remaining'
    refine ⟨t, by simpa using counted, sameDynamic ▸ before.dynamic, sameDynamic ▸ before.pending,
      inside', ?_⟩
    rw [remaining']
    omega
  have failed : ∀ m : MemoryTraceReader,
      CountedThread d records count { s.threadDataVec tid with memFile := m } :=
    fun _ => ⟨before.dynamic, before.pending, before.inside, before.count⟩
  have same : s.setThread tid { s.threadDataVec tid with
      memFile := (s.threadDataVec tid).memFile } = s := s.setThread_self tid
  unfold SinucaTraceReader.fetchInstruction SinucaTraceReader.fetchMemoryData
  dsimp only
  split
  · by_cases ended : (s.threadDataVec tid).memFile.hasReachedEnd = true
    · simp only [ended, if_true]
      exact ⟨_, same.symm, failed _⟩
    · simp only [ended]
      rcases (s.threadDataVec tid).memFile.readMemoryOperations _ with ⟨_ | _, packet, m⟩
      · obtain ⟨t, counted, after⟩ := stepped m
        exact ⟨t, counted, after⟩
      · exact ⟨_, rfl, failed m⟩
  · obtain ⟨t, counted, after⟩ := stepped (s.threadDataVec tid).memFile
    rw [same] at counted
    exact ⟨t, counted, after⟩

/-- A reader each of whose threads has been handed as many instructions as `counts`
says. -/
structure Counted (threads : List (CountedTrace d)) (counts : Nat → Nat) (s : SinucaTraceReader) :
    Prop where
  dictionary : Dictionary d s
  threads : ∀ tid, CountedThread d
    ((threads.map CountedTrace.files).getD tid default).dynamic (counts tid) (s.threadDataVec tid)

variable {threads : List (CountedTrace d)}

theorem CountedTrace.known_getD (threads : List (CountedTrace d)) (tid : Nat) :
    ∀ r ∈ ((threads.map CountedTrace.files).getD tid default).dynamic,
      r.getRecordType = .basicBlockIdentifier → r.getBasicBlockIdentifier < d.blocks.length := by
  intro r member
  rw [List.getD_eq_getElem?_getD, List.getElem?_map] at member
  cases present : threads[tid]? with
  | none =>
    rw [present] at member
    cases member
  | some t =>
    rw [present] at member
    exact t.known r member

theorem counted_openTrace (threads : List (CountedTrace d)) (garbage : Nat → BitVec 64) :
    Counted threads (fun _ => 0) (.openTrace d (threads.map CountedTrace.files) garbage) := by
  refine ⟨⟨rfl, rfl⟩, fun tid => ⟨DynamicTraceReader.consistent_openFile _, ?_, ?_, ?_⟩⟩
  · exact List.suffix_refl _
  · simp [SinucaTraceReader.openTrace]
  · rw [Nat.zero_add]
    rfl

/-- One thread moves on, and is handed `more`. -/
theorem Counted.set {counts : Nat → Nat} {s : SinucaTraceReader} (before : Counted threads counts s)
    (c : ReplayControl) {tid : Nat} {t : ThreadData} (more : Nat)
    (thread : CountedThread d ((threads.map CountedTrace.files).getD tid default).dynamic
      (counts tid + more) t) :
    Counted threads (fun u => counts u + if tid = u then more else 0)
      ((s.setControl c).setThread tid t) := by
  refine ⟨⟨before.dictionary.sizes, before.dictionary.instructions⟩, fun u => ?_⟩
  by_cases here : tid = u
  · subst here
    rw [SinucaTraceReader.setThread_same, if_pos rfl]
    exact thread
  · rw [SinucaTraceReader.setThread_other _ _ _ _ (Ne.symm here), if_neg here]
    exact before.threads u

/-- A call hands out an instruction exactly when it returns `ok`. -/
theorem fetch_counted {counts : Nat → Nat} {s : SinucaTraceReader}
    (before : Counted threads counts s) (ret : InstructionPacket) (tid : Nat) :
    Counted threads
      (fun u => counts u + if tid = u then (if (s.fetch ret tid).1 = .ok then 1 else 0) else 0)
      (s.fetch ret tid).2.2 := by
  have thread := before.threads tid
  have unchanged : Counted threads (fun u => counts u + if tid = u then 0 else 0) s := by
    have same := before.set s.toReplayControl 0 thread
    rwa [SinucaTraceReader.setControl_same, SinucaTraceReader.setThread_self] at same
  have delivery : ∀ c (t : ThreadData),
      CountedThread d ((threads.map CountedTrace.files).getD tid default).dynamic (counts tid) t →
      t.isInsideBasicBlock = true →
      Counted threads (fun u => counts u + if tid = u then
          (if (((s.setControl c).setThread tid t).fetchInstruction ret tid).1 = .ok then 1 else 0)
        else 0) (((s.setControl c).setThread tid t).fetchInstruction ret tid).2.2 := by
    intro c t counted inside
    obtain ⟨t', after, counted'⟩ := fetchInstruction_counted ((s.setControl c).setThread tid t) ret
      tid ⟨before.dictionary.sizes, before.dictionary.instructions⟩
      (by rw [SinucaTraceReader.setThread_same]; exact counted) (by simpa using inside)
    rw [after, SinucaTraceReader.setThread_setThread]
    exact before.set c _ counted'
  have cases := s.fetch_cases ret tid thread.dynamic
  generalize s.fetch ret tid = result at cases ⊢
  cases cases with
  | executionEnded => exact unchanged
  | idle => exact unchanged
  | inside _ _ _ block =>
    have delivered := delivery s.toReplayControl _ thread block
    rwa [SinucaTraceReader.setControl_same, SinucaTraceReader.setThread_self] at delivered
  | missing _ _ _ outside search rest c replayed none r left fresh _ =>
    have expanded := replayEvents_expansion (d := d) _ _ _ _ _ _ replayed
    have missed := thread.miss outside expanded none left fresh
    split
    · exact before.set c 0 missed
    · exact before.set c 0 missed
  | entered _ _ _ outside bblIndex rest c replayed r left fresh _ =>
    have expanded := replayEvents_expansion (d := d) _ _ _ _ _ _ replayed
    exact delivery c _ (thread.enter (CountedTrace.known_getD threads tid) outside expanded left
      fresh) rfl

end Counting

/-- The instructions the reader returned for core `i`, and below all of them. -/
def okCount (i : Nat) (log : List EngineEvent) : Nat :=
  log.countP fun
    | .fetched id r _ => decide (id = i ∧ r = .ok)
    | .sent .. => false

def fetchResultOks (log : List EngineEvent) : Nat :=
  log.countP fun
    | .fetched _ r _ => decide (r = .ok)
    | .sent .. => false

/-- `GetTotalInstToBeFetched` of a reader opened on these files. -/
def getTotalInstToBeFetched {d : StaticDictionary} (threads : List (CountedTrace d)) (tid : Nat) :
    BitVec 64 :=
  (threads[tid]?.map fun t => t.header.totalExecutedInstructions).getD 0

def traceSize {d : StaticDictionary} (threads : List (CountedTrace d)) : BitVec 64 :=
  Engine.getTraceSize threads.length (getTotalInstToBeFetched threads)

/-- The counter is the number of instructions returned, and no greater than the trace,
so that nothing wraps in the heartbeat. -/
structure CountsReturned (traceSize : BitVec 64)
    (after : Engine SinucaTraceReader × List EngineEvent) : Prop where
  count : after.1.fetchedInstructions.toNat = fetchResultOks after.2
  bound : after.1.fetchedInstructions ≤ traceSize
  remaining : (after.1.remaining traceSize).toNat + fetchResultOks after.2 = traceSize.toNat

/-- The reader and the buffers of an engine over the calls of its log. -/
def readerStep (s : SinucaTraceReader × (Nat → InstructionPacket)) :
    EngineEvent → (SinucaTraceReader × (Nat → InstructionPacket)) × List FetchResult
  | .fetched id _ _ =>
    let fetch := s.1.fetch (s.2 id) id
    ((fetch.2.2, Function.update s.2 id fetch.2.1), [fetch.1])
  | .sent .. => (s, [])

def Finds (s : SinucaTraceReader × (Nat → InstructionPacket)) : EngineEvent → Prop
  | .fetched id _ _ => starves s.1 id = false
  | .sent .. => True

instance (s : SinucaTraceReader × (Nat → InstructionPacket)) : DecidablePred (Finds s)
  | .fetched id _ _ => inferInstanceAs (Decidable (starves s.1 id = false))
  | .sent .. => .isTrue trivial

/-- After the set-up no call is made where it starves. -/
def LookaheadFinds (bound : Nat) (reader : SinucaTraceReader) (garbage : Nat → InstructionPacket)
    (connections : Nat → FetchConnection) (cores : Nat) (ops : List Engine.Op) : Prop :=
  let setup := Engine.setupSimulation sinucaTraceReader reader garbage connections cores
  setup.1 = false →
    Machine.Meets readerStep Finds (setup.2.1.traceReader, setup.2.1.fetchBuffers)
      (Machine.run (Engine.step sinucaTraceReader bound) setup.2.1 ops).2

section Bounds

open Finset

theorem okCount_fetched (u : Nat) (log : List EngineEvent) (id : Nat) (r : FetchResult)
    (p : InstructionPacket) :
    okCount u (log ++ [.fetched id r p]) =
      okCount u log + if id = u then (if r = .ok then 1 else 0) else 0 := by
  by_cases here : id = u <;> simp [okCount, here]

theorem fetchResultOks_fetched (log : List EngineEvent) (id : Nat) (r : FetchResult)
    (p : InstructionPacket) :
    fetchResultOks (log ++ [.fetched id r p]) =
      fetchResultOks log + if r = .ok then 1 else 0 := by
  simp [fetchResultOks]

theorem okCount_sent (u : Nat) (log : List EngineEvent) (id : Nat) (p : InstructionPacket)
    (accepted : Bool) : okCount u (log ++ [.sent id p accepted]) = okCount u log := by
  simp [okCount]

theorem fetchResultOks_sent (log : List EngineEvent) (id : Nat) (p : InstructionPacket)
    (accepted : Bool) : fetchResultOks (log ++ [.sent id p accepted]) = fetchResultOks log := by
  simp [fetchResultOks]

/-- Where only the first `n` cores have been returned anything, their counts add up to
the whole. -/
theorem fetchResultOks_eq_sum (n : Nat) (log : List EngineEvent)
    (others : ∀ u, n ≤ u → okCount u log = 0) :
    fetchResultOks log = ∑ u ∈ range n, okCount u log := by
  induction log using List.reverseRecOn with
  | nil => simp [fetchResultOks, okCount]
  | append_singleton log event ih =>
    cases event with
    | sent id p accepted =>
      simp only [okCount_sent] at others
      simp only [fetchResultOks_sent, okCount_sent]
      exact ih others
    | fetched id r p =>
      simp only [okCount_fetched] at others
      have before : ∀ u, n ≤ u → okCount u log = 0 := fun u past => by
        have none := others u past
        omega
      simp only [fetchResultOks_fetched, okCount_fetched, sum_add_distrib, ih before,
        sum_ite_eq, mem_range]
      by_cases present : id < n
      · rw [if_pos present]
      · rw [if_neg present]
        have none := others id (Nat.not_lt.mp present)
        rw [if_pos rfl] at none
        omega

theorem toNat_getTraceSize (n : Nat) (total : Nat → BitVec 64)
    (fits : ∑ i ∈ range n, (total i).toNat < 2 ^ 64) :
    (Engine.getTraceSize n total).toNat = ∑ i ∈ range n, (total i).toNat := by
  induction n with
  | zero => rfl
  | succ n ih =>
    rw [sum_range_succ] at fits ⊢
    have before := ih (by omega)
    rw [Engine.getTraceSize] at before ⊢
    rw [List.range_succ, List.foldl_append, List.foldl_cons, List.foldl_nil, BitVec.toNat_add,
      before, Nat.mod_eq_of_lt fits]

end Bounds

section Simulation

variable {d : StaticDictionary} {threads : List (CountedTrace d)}

theorem Counted.fetched {log : List EngineEvent} {s : SinucaTraceReader}
    (before : Counted threads (fun u => okCount u log) s) (ret : InstructionPacket) (id : Nat) :
    Counted threads
      (fun u => okCount u (log ++ [.fetched id (s.fetch ret id).1 (s.fetch ret id).2.1]))
      (s.fetch ret id).2.2 := by
  simp only [okCount_fetched]
  exact fetch_counted before ret id

theorem ofNat_count (count : Nat) (r : FetchResult) :
    (if r = .ok then BitVec.ofNat 64 count + 1 else BitVec.ofNat 64 count) =
      BitVec.ofNat 64 (count + if r = .ok then 1 else 0) := by
  split
  · exact (BitVec.ofNat_add count 1).symm
  · rfl

/-- An engine that has counted the instructions of its log, as the reader has handed
them out. -/
structure Tallied (threads : List (CountedTrace d)) (e : Engine SinucaTraceReader)
    (log : List EngineEvent) : Prop where
  counted : Counted threads (fun u => okCount u log) e.traceReader
  count : e.fetchedInstructions = BitVec.ofNat 64 (fetchResultOks log)

/-- The set-up counts nothing but instructions. -/
theorem setupLoop_tallied (ids : List Nat) (e : Engine SinucaTraceReader) (log : List EngineEvent)
    (before : Tallied threads e log) :
    Tallied threads (Engine.setupLoop sinucaTraceReader ids e).2.1
      (log ++ (Engine.setupLoop sinucaTraceReader ids e).2.2) := by
  apply Engine.setupLoop_keeps sinucaTraceReader (P := Tallied threads) ?_ ids e log before
  intro e e' log id reader count before
  refine ⟨?_, ?_⟩
  · rw [reader]
    exact before.counted.fetched _ _
  · rw [count, before.count, fetchResultOks_fetched]
    exact ofNat_count _ _

/-- What holds along a run from `start`, with `old` the log of the set-up: the reader is
the one that answered the calls of the log, and where none of them starved, the counter
has followed it. -/
structure Counting (threads : List (CountedTrace d))
    (start : SinucaTraceReader × (Nat → InstructionPacket)) (old : List EngineEvent)
    (e : Engine SinucaTraceReader) (log : List EngineEvent) : Prop where
  reader : (Machine.run readerStep start log).1 = (e.traceReader, e.fetchBuffers)
  counted : Counted threads (fun u => okCount u (old ++ log)) e.traceReader
  count : Machine.Meets readerStep Finds start log →
    e.fetchedInstructions = BitVec.ofNat 64 (fetchResultOks (old ++ log))

theorem keptByCalls_counting (start : SinucaTraceReader × (Nat → InstructionPacket))
    (old : List EngineEvent) :
    Engine.KeptByCalls sinucaTraceReader (Counting threads start old) := by
  refine ⟨fun e log connections before => ⟨before.reader, before.counted, before.count⟩, ?_⟩
  intro e log id before
  obtain ⟨e', accepted, result, buffers, reader, count⟩ := e.sendBufferedAndFetch_eq
    sinucaTraceReader id
  rw [result]
  change e'.traceReader = (e.traceReader.fetch (e.fetchBuffers id) id).2.2 at reader
  change e'.fetchBuffers = Function.update e.fetchBuffers id
    (e.traceReader.fetch (e.fetchBuffers id) id).2.1 at buffers
  have consistent := (before.counted.threads id).dynamic
  have longer : ∀ event event' : EngineEvent,
      old ++ (log ++ [event, event']) = old ++ log ++ [event] ++ [event'] := by simp
  refine ⟨?_, ?_, fun meets => ?_⟩
  · rw [Machine.run_append, before.reader, buffers, reader]
    rfl
  · simp only [longer, okCount_sent]
    rw [reader]
    exact before.counted.fetched (e.fetchBuffers id) id
  · obtain ⟨meets, here⟩ := (Machine.meets_append _ _ _ _ _).mp meets
    rw [before.reader] at here
    have fed : starves e.traceReader id = false := here.1
    have notNop : (e.traceReader.fetch (e.fetchBuffers id) id).1 ≠ .nop := by
      rw [ne_eq, fetch_nop_iff _ _ _ consistent, fed]
      simp
    dsimp only
    rw [count, longer, fetchResultOks_sent, fetchResultOks_fetched, before.count meets,
      ← ofNat_count]
    change (if (e.traceReader.fetch (e.fetchBuffers id) id).1 = .end_ ∨
      (e.traceReader.fetch (e.fetchBuffers id) id).1 = .error then _ else _) =
      if (e.traceReader.fetch (e.fetchBuffers id) id).1 = .ok then _ else _
    cases answer : (e.traceReader.fetch (e.fetchBuffers id) id).1 with
    | nop => exact absurd answer notNop
    | ok => rfl
    | end_ => rfl
    | error => rfl

/-- Past the threads of the trace nothing is handed out, and of a thread no more than
its header says. -/
theorem Counted.le_header {counts : Nat → Nat} {s : SinucaTraceReader}
    (before : Counted threads counts s) (tid : Nat) :
    counts tid ≤ (getTotalInstToBeFetched threads tid).toNat := by
  have whole := (before.threads tid).count
  rw [List.getD_eq_getElem?_getD, List.getElem?_map] at whole
  unfold getTotalInstToBeFetched
  cases present : threads[tid]? with
  | none =>
    rw [present] at whole
    change counts tid + (remaining d (s.threadDataVec tid)).length = 0 at whole
    omega
  | some t =>
    rw [present] at whole
    simp only [Option.map_some, Option.getD_some] at whole ⊢
    rw [t.counted]
    omega

/-- A counter that has followed the log is within the headers. -/
theorem countsReturned_of {e : Engine SinucaTraceReader} {log : List EngineEvent}
    (fits : ∑ i ∈ Finset.range threads.length, (getTotalInstToBeFetched threads i).toNat < 2 ^ 64)
    (counted : Counted threads (fun u => okCount u log) e.traceReader)
    (count : e.fetchedInstructions = BitVec.ofNat 64 (fetchResultOks log)) :
    CountsReturned (traceSize threads) (e, log) := by
  have size : (traceSize threads).toNat =
      ∑ i ∈ Finset.range threads.length, (getTotalInstToBeFetched threads i).toNat :=
    toNat_getTraceSize _ _ fits
  have others : ∀ u, threads.length ≤ u → okCount u log = 0 := by
    intro u past
    have none := counted.le_header u
    simpa [getTotalInstToBeFetched, past] using none
  have within : fetchResultOks log ≤ (traceSize threads).toNat := by
    rw [size, fetchResultOks_eq_sum _ _ others]
    exact Finset.sum_le_sum fun u _ => counted.le_header u
  have exact_ : e.fetchedInstructions.toNat = fetchResultOks log := by
    rw [count, BitVec.toNat_ofNat, Nat.mod_eq_of_lt]
    omega
  have bound : e.fetchedInstructions ≤ traceSize threads := by
    rw [BitVec.le_def, exact_]
    exact within
  refine ⟨exact_, bound, ?_⟩
  rw [Engine.remaining, BitVec.toNat_sub_of_le bound, exact_]
  exact Nat.sub_add_cancel within

/-- In every simulation of a trace whose instructions fit the counter, if no call of the
look-ahead starves, the engine has counted the instructions returned to it, and the
heartbeat's subtraction does not wrap. -/
theorem remaining_never_wraps (d : StaticDictionary) (threads : List (CountedTrace d))
    (fits : ∑ i ∈ Finset.range threads.length, (getTotalInstToBeFetched threads i).toNat < 2 ^ 64)
    (garbage : Nat → BitVec 64) (bound : Nat) (buffers : Nat → InstructionPacket)
    (connections : Nat → FetchConnection) (cores : Nat) (ops : List Engine.Op)
    (finds : LookaheadFinds bound (.openTrace d (threads.map CountedTrace.files) garbage) buffers
      connections cores ops) :
    CountsReturned (traceSize threads)
      (Engine.simulate sinucaTraceReader bound
        (.openTrace d (threads.map CountedTrace.files) garbage) buffers connections cores ops) := by
  have start : Tallied threads
      { traceReader := .openTrace d (threads.map CountedTrace.files) garbage
        fetchBuffers := buffers
        connections := connections
        numberOfFetchers := cores } [] :=
    ⟨counted_openTrace threads garbage, rfl⟩
  have after := setupLoop_tallied (List.range cores) _ [] start
  unfold LookaheadFinds at finds
  unfold Engine.simulate
  dsimp only at finds ⊢
  change Tallied threads (Engine.setupSimulation sinucaTraceReader _ buffers connections
    cores).2.1 ([] ++ (Engine.setupSimulation sinucaTraceReader _ buffers connections
    cores).2.2) at after
  rw [List.nil_append] at after
  split
  · exact countsReturned_of fits after.counted after.count
  · rename_i success
    rw [Bool.not_eq_true] at success
    generalize Engine.setupSimulation sinucaTraceReader _ buffers connections cores = setup
      at after finds success ⊢
    have run := (keptByCalls_counting (setup.2.1.traceReader, setup.2.1.fetchBuffers)
      setup.2.2).run bound setup.2.1 ops []
      ⟨rfl, by simpa using after.counted, fun _ => by simpa using after.count⟩
    rw [List.nil_append] at run
    exact countsReturned_of fits run.counted (run.count (finds success))

end Simulation

/-- Two threads of two instructions each; thread 1 waits at a barrier for thread 0. -/
def waitingTrace : List (CountedTrace oneInstruction) :=
  [{ header := FileHeader.create.setTotalExecutedInstructions 2
     files := ⟨[.basicBlock 0, .basicBlock 0], []⟩
     known := by decide
     counted := by decide +kernel },
    { header := FileHeader.create.setTotalExecutedInstructions 2
      files := ⟨[.basicBlock 0, .threadEvent 0, .basicBlock 0], []⟩
      known := by decide
      counted := by decide +kernel }]

/-- A simulation of it in which core `i` asks `n` times for one instruction. -/
def simulateRequests (i n : Nat) : Engine SinucaTraceReader × List EngineEvent :=
  Engine.simulate sinucaTraceReader 8
    (.openTrace oneInstruction (waitingTrace.map CountedTrace.files) fun _ => 0) (fun _ => {})
    (fun _ => .createBuffers 0) 2
    (List.replicate n [Engine.Op.sendRequest i 0, .posClock, .clock]).flatten

theorem remaining_never_wraps_once :
    CountsReturned (traceSize waitingTrace) (simulateRequests 0 1) :=
  remaining_never_wraps oneInstruction waitingTrace (by decide +kernel) _ 8 _ _ 2 _
    (fun _ => by decide +kernel)

/-- Every request of the sleeping thread's core counts an instruction, and from the
third on more are counted than the trace has. -/
theorem starved_requests_wrap :
    (simulateRequests 1 1).1.fetchedInstructions = 3 ∧
    fetchResultOks (simulateRequests 1 1).2 = 2 ∧
    traceSize waitingTrace = 4 ∧
    (simulateRequests 1 3).1.remaining (traceSize waitingTrace) = -1 ∧
    ¬ CountsReturned (traceSize waitingTrace) (simulateRequests 1 3) := by
  refine ⟨by decide +kernel, by decide +kernel, by decide +kernel, by decide +kernel, ?_⟩
  intro counts
  exact absurd counts.bound (by decide +kernel)

end Sinuca3.Guarantees
