import Sinuca3.Guarantees.CriticalSections
import Sinuca3.Guarantees.FaithfulReplay
import Sinuca3.Source.Engine.Engine

/-!
# The start of a simulation

`SetupSimulation` takes one instruction for each core, in order, and fails unless every
call returns one. A thread that sleeps returns none, so what stands before the first
basic blocks decides whether a simulation starts.
-/
namespace Sinuca3.Guarantees
open Sinuca3.Source Lib

/-- The records before the first basic block. -/
def leading (records : List DynamicTraceRecord) : List DynamicTraceRecord :=
  records.takeWhile fun r => r.event.isSome

/-- The events that no search stops at, as long as nobody waits at a barrier. -/
def passes (n : Nat) : ThreadEventType → Bool
  | .criticalStart => true
  | .criticalEnd => true
  | .barrierSync => decide (n = 1)
  | .abruptEnd => false
  | .unknown _ => false

/-- Starting with `depth` sections open, no end lacks its start. -/
def sectionsNested : Nat → List DynamicTraceRecord → Bool
  | _, [] => true
  | depth, r :: rest =>
    (match r.event with
      | some .criticalEnd => decide (0 < depth)
      | _ => true) && sectionsNested (depthAfter depth r) rest

/-- Thread `i` of `n` gets to its first basic block, and leaves the next one awake. -/
def StartsAwake (n i : Nat) (records : List DynamicTraceRecord) : Prop :=
  (∀ r ∈ leading records, ∀ e, r.event = some e → passes n e = true) ∧
    (i + 1 < n → openSections (leading records) = 0)

/-- The control while thread `tid` looks for its first block. -/
structure Opening (n tid depth : Nat) (c : ReplayControl) : Prop where
  total : c.totalThreads = n
  nobody : c.barrierCont = 0
  orderly : c.reachedAbruptEnd = false
  running : Running n tid depth c
  calm : depth = 0 → ∀ u < n, c.isThreadAwake u = true

theorem Opening.stops_iff {n tid depth : Nat} {c : ReplayControl} (before : Opening n tid depth c)
    (e : ThreadEventType) : (c.handleEvent tid e).2 = false ↔ passes n e = true := by
  have total := before.total
  have nobody := before.nobody
  cases e with
  | abruptEnd => simp [ReplayControl.handleEvent, passes]
  | unknown => simp [ReplayControl.handleEvent, passes]
  | criticalStart => simp [ReplayControl.handleEvent, passes]
  | criticalEnd =>
    simp only [ReplayControl.handleEvent, passes]
    split
    · simp
    · split <;> simp
  | barrierSync =>
    simp only [ReplayControl.handleEvent, passes, nobody, total]
    split
    · rename_i alone
      simp only [decide_eq_true_eq, true_iff]
      omega
    · rename_i more
      simp only [Bool.true_eq_false, decide_eq_true_eq, false_iff]
      omega

theorem Opening.passed {n tid depth : Nat} {c : ReplayControl} (before : Opening n tid depth c)
    (inRange : tid < n) (r : DynamicTraceRecord) (e : ThreadEventType) (event : r.event = some e)
    (started : e = .criticalEnd → 0 < depth) (pass : passes n e = true) :
    Opening n tid (depthAfter depth r) (c.handleEvent tid e).1 := by
  obtain ⟨total, nobody, orderly, old, calm⟩ := before
  have kept := handleEvent_depth old r e event started
  have count := old.count
  cases e with
  | abruptEnd => cases pass
  | unknown => cases pass
  | criticalStart =>
    refine ⟨total, nobody, orderly, kept (by simp), ?_⟩
    intro closed
    simp [depthAfter, event] at closed
  | criticalEnd =>
    have inside := started rfl
    have left : depthAfter depth r = depth - 1 := by simp [depthAfter, event]
    have running := kept (by simp)
    rw [left] at running ⊢
    unfold ReplayControl.handleEvent at running ⊢
    dsimp only at running ⊢
    split at running
    · rename_i closed
      rw [if_pos closed]
      exact ⟨total, nobody, orderly, running, fun _ u _ => rfl⟩
    · rename_i still
      rw [if_neg still]
      rw [if_neg (by omega)] at running ⊢
      exact ⟨total, nobody, orderly, running, fun closed => by omega⟩
  | barrierSync =>
    have alone : n = 1 := by simpa [passes] using pass
    have same : depthAfter depth r = depth := by simp [depthAfter, event]
    have arrived : c.barrierCont + 1 = c.totalThreads := by
      rw [nobody, total, alone]
      simp
    unfold ReplayControl.handleEvent
    dsimp only
    rw [if_pos arrived, same]
    refine ⟨total, rfl, orderly, ⟨count, ?_⟩, fun _ u _ => rfl⟩
    intro _ u present other
    omega

/-- The search for the first block finds it exactly when every event passes. -/
theorem Opening.search {n tid depth : Nat} {c : ReplayControl} (before : Opening n tid depth c)
    (inRange : tid < n) (records : List DynamicTraceRecord)
    (nested : sectionsNested depth records = true)
    (kinds : ∀ r ∈ records, r.getRecordType = .basicBlockIdentifier ∨
      r.getRecordType = .threadEvent)
    (block : ∃ r ∈ records, r.getRecordType = .basicBlockIdentifier) (search : BlockSearch)
    (rest : List DynamicTraceRecord) (c' : ReplayControl)
    (replayed : replayEvents tid records c = (search, rest, c')) :
    (search.missing = false ↔
      ∀ r ∈ leading records, ∀ e, r.event = some e → passes n e = true) ∧
    (search.missing = false →
      Opening n tid ((leading records).foldl depthAfter depth) c') := by
  induction records generalizing c depth with
  | nil =>
    obtain ⟨r, member, _⟩ := block
    cases member
  | cons r tail ih =>
    have step := replayEvents_cons tid r tail c
    generalize replayEvents tid (r :: tail) c = result at step replayed
    cases step with
    | stops kind e code _ handled =>
      have event := DynamicTraceRecord.event_of_threadEvent kind code
      have first : leading (r :: tail) = r :: leading tail := by simp [leading, event]
      have stops := before.stops_iff e
      rw [handled] at stops
      cases replayed
      have fails : passes n e = false := by
        by_contra pass
        exact absurd (stops.mpr (by simpa using pass)) (by simp)
      rw [first]
      refine ⟨⟨fun found => (by cases found), fun all => ?_⟩, fun found => (by cases found)⟩
      rw [all r (List.mem_cons_self ..) e event] at fails
      cases fails
    | goesOn kind e code _ handled =>
      have event := DynamicTraceRecord.event_of_threadEvent kind code
      have first : leading (r :: tail) = r :: leading tail := by simp [leading, event]
      have stops := before.stops_iff e
      rw [sectionsNested, Bool.and_eq_true] at nested
      obtain ⟨started, nested'⟩ := nested
      have passed := before.passed inRange r e event fun ends => by
        simpa [event, ends] using started
      rw [handled] at stops passed
      have pass := stops.mp rfl
      have later : ∃ r ∈ tail, r.getRecordType = .basicBlockIdentifier := by
        obtain ⟨b, member, isBlock⟩ := block
        rcases List.mem_cons.mp member with rfl | member
        · rw [kind] at isBlock
          cases isBlock
        · exact ⟨b, member, isBlock⟩
      obtain ⟨found, opening⟩ := ih (passed pass) nested'
        (fun r member => kinds r (List.mem_cons_of_mem _ member)) later replayed
      rw [first]
      refine ⟨found.trans ⟨?_, ?_⟩, opening⟩
      · intro all r' member e' same
        rcases List.mem_cons.mp member with rfl | member
        · rw [event] at same
          cases same
          exact pass
        · exact all r' member e' same
      · intro all r' member
        exact all r' (List.mem_cons_of_mem _ member)
    | block kind =>
      have event := DynamicTraceRecord.event_of_block kind
      have none : leading (r :: tail) = [] := by simp [leading, event]
      cases replayed
      rw [none]
      refine ⟨⟨fun _ r' member => (by cases member), fun _ => rfl⟩, fun _ => before⟩
    | unknown _ kind =>
      rcases kinds r (List.mem_cons_self ..) with isBlock | isEvent
      · rw [kind] at isBlock
        cases isBlock
      · rw [kind] at isEvent
        cases isEvent

section Setup

variable {d : StaticDictionary}

/-- The reader once the first `i` threads have their first instruction. -/
structure Begun (threads : List (ThreadTrace d)) (i : Nat) (s : SinucaTraceReader) : Prop where
  dictionary : Dictionary d s
  follows : ∀ tid (present : tid < threads.length), ∃ packets,
    Follows threads[tid] packets (s.threadDataVec tid)
  unread : ∀ tid (present : tid < threads.length), i ≤ tid →
    (s.threadDataVec tid).dynFile.pending = threads[tid].records ∧
      (s.threadDataVec tid).isInsideBasicBlock = false
  running : ∀ tid < threads.length, (s.threadDataVec tid).dynFile.reachedEnd = false
  total : s.totalThreads = threads.length
  nobody : s.barrierCont = 0
  orderly : s.reachedAbruptEnd = false

/-- With nobody asleep and no section open. -/
structure Calm (n : Nat) (c : ReplayControl) : Prop where
  outside : c.criticalCont = 0
  awake : ∀ u < n, c.isThreadAwake u = true

theorem Begun.going {threads : List (ThreadTrace d)} {i : Nat} {s : SinucaTraceReader}
    (before : Begun threads i s) (present : 0 < threads.length) : s.hasExecutionEnded = false := by
  unfold SinucaTraceReader.hasExecutionEnded
  rw [before.orderly]
  exact before.running 0 present

/-- A thread asleep gets no instruction. -/
theorem Begun.asleep {threads : List (ThreadTrace d)} {i : Nat} {s : SinucaTraceReader}
    (before : Begun threads i s) (inRange : i < threads.length)
    (asleep : s.isThreadAwake i = false) (ret : InstructionPacket) : (s.fetch ret i).1 ≠ .ok := by
  intro ok
  obtain ⟨packets, follows⟩ := before.follows i inRange
  have going := before.going (Nat.lt_of_le_of_lt (Nat.zero_le i) inRange)
  have cases := s.fetch_cases ret i follows.dynamic
  generalize s.fetch ret i = result at cases ok
  cases cases with
  | executionEnded => cases ok
  | idle => cases ok
  | inside _ _ awake => simp [asleep] at awake
  | missing _ _ awake => simp [asleep] at awake
  | entered _ _ awake => simp [asleep] at awake

/-- The first call for thread `i`, with everybody awake. -/
theorem Begun.fetch {threads : List (ThreadTrace d)} {i : Nat} {s : SinucaTraceReader}
    (before : Begun threads i s) (calm : Calm threads.length s.toReplayControl)
    (inRange : i < threads.length)
    (nested : sectionsNested 0 threads[i].records = true)
    (block : blockIds threads[i].records ≠ []) (ret : InstructionPacket) :
    ((s.fetch ret i).1 = .ok ↔ ∀ r ∈ leading threads[i].records, ∀ e, r.event = some e →
      passes threads.length e = true) ∧
    ((s.fetch ret i).1 = .ok → Begun threads (i + 1) (s.fetch ret i).2.2 ∧
      Opening threads.length i (openSections (leading threads[i].records))
        (s.fetch ret i).2.2.toReplayControl) := by
  obtain ⟨packets, follows⟩ := before.follows i inRange
  obtain ⟨unread, outside⟩ := before.unread i inRange (Nat.le_refl i)
  have going := before.going (Nat.lt_of_le_of_lt (Nat.zero_le i) inRange)
  have opening : Opening threads.length i 0 s.toReplayControl := by
    refine ⟨before.total, before.nobody, before.orderly, ⟨calm.outside, ?_⟩, fun _ => calm.awake⟩
    intro inside
    exact absurd inside (Nat.lt_irrefl 0)
  have kinds : ∀ r ∈ threads[i].records, r.getRecordType = .basicBlockIdentifier ∨
      r.getRecordType = .threadEvent :=
    fun r member => (threads[i].inRange r member).imp_left And.left
  have someBlock : ∃ r ∈ threads[i].records, r.getRecordType = .basicBlockIdentifier := by
    obtain ⟨b, member⟩ := List.exists_mem_of_ne_nil _ block
    obtain ⟨r, found, same⟩ := List.mem_filterMap.mp member
    refine ⟨r, found, ?_⟩
    split at same
    · assumption
    · cases same
  have cases := s.fetch_cases ret i follows.dynamic
  generalize s.fetch ret i = result at cases ⊢
  cases cases with
  | executionEnded finished =>
    rw [going] at finished
    cases finished
  | idle _ waiting =>
    rcases waiting with ended | asleep
    · rw [before.running i inRange] at ended
      cases ended
    · rw [calm.awake i inRange] at asleep
      cases asleep
  | inside _ _ _ inside =>
    rw [outside] at inside
    cases inside
  | missing _ _ _ _ search rest c replayed none =>
    rw [unread] at replayed
    obtain ⟨found, _⟩ := opening.search inRange _ nested kinds someBlock _ _ _ replayed
    have fails : ¬ (if c.fetchFailed = true then FetchResult.error else .nop) = .ok := by
      split <;> simp
    refine ⟨⟨fun ok => absurd ok fails, fun all => ?_⟩, fun ok => absurd ok fails⟩
    rw [found.mpr all] at none
    cases none
  | entered _ _ _ _ bblIndex rest c replayed reader left fresh running' =>
    have expanded := replayEvents_expansion (d := d) _ _ _ _ _ _ replayed
    rw [unread] at replayed
    obtain ⟨found, opened⟩ := opening.search inRange _ nested kinds someBlock _ _ _ replayed
    have entered := follows.entered outside expanded left fresh running'
    obtain ⟨p, t, delivered, follows'⟩ := fetchInstruction_follows
      ((s.setControl c).setThread i { s.threadDataVec i with
        dynFile := reader, currentBasicBlock := bblIndex, currentInst := 0,
        isInsideBasicBlock := true }) ret i
      ⟨before.dictionary.sizes, before.dictionary.instructions⟩ threads[i] packets
      (by simpa using entered) (by simp)
    have kept := SinucaTraceReader.fetchInstruction_keepsRecords
      ((s.setControl c).setThread i { s.threadDataVec i with
        dynFile := reader, currentBasicBlock := bblIndex, currentInst := 0,
        isInsideBasicBlock := true }) ret i
    rw [delivered] at kept ⊢
    rw [SinucaTraceReader.setThread_setThread] at kept ⊢
    have after := opened rfl
    refine ⟨⟨fun _ => found.mp rfl, fun _ => rfl⟩, fun _ => ⟨?_, after⟩⟩
    constructor
    · exact ⟨before.dictionary.sizes, before.dictionary.instructions⟩
    · intro tid present
      by_cases here : tid = i
      · subst here
        exact ⟨_, by simpa using follows'⟩
      · obtain ⟨packets', follows⟩ := before.follows tid present
        exact ⟨packets', by simpa [here] using follows⟩
    · intro tid present late
      have other : tid ≠ i := by omega
      simpa [other] using before.unread tid present (by omega)
    · intro tid present
      by_cases here : tid = i
      · subst here
        obtain ⟨t', same, dynamic⟩ := kept
        have thread := congrArg (fun s' => (s'.threadDataVec tid).dynFile.reachedEnd) same
        simp only [SinucaTraceReader.setThread_same, dynamic] at thread
        rw [SinucaTraceReader.setThread_same, thread, running']
      · simpa [here] using before.running tid present
    · exact after.total
    · exact after.nobody
    · exact after.orderly

/-- One iteration of the loop that buffers the first instructions. -/
theorem setupLoop_cons {ρ : Type} (R : TraceReader ρ) (i : Nat) (rest : List Nat) (e : Engine ρ) :
    ∃ e', (Engine.setupLoop R (i :: rest) e).1 =
        (decide ((R.fetch e.traceReader (e.fetchBuffers i) i).1 ≠ .ok) ||
          (Engine.setupLoop R rest e').1) ∧
      e'.traceReader = (R.fetch e.traceReader (e.fetchBuffers i) i).2.2 := by
  refine ⟨{ e with
    traceReader := (R.fetch e.traceReader (e.fetchBuffers i) i).2.2
    fetchBuffers := Function.update e.fetchBuffers i (R.fetch e.traceReader (e.fetchBuffers i) i).2.1
    fetchedInstructions := e.fetchedInstructions + 1 }, ?_, rfl⟩
  rw [Engine.setupLoop]
  by_cases ok : (R.fetch e.traceReader (e.fetchBuffers i) i).1 = .ok
  · rw [if_neg (by simpa using ok)]
    simp [ok]
  · rw [if_pos ok]
    simp [ok]

theorem setupLoop_starts (threads : List (ThreadTrace d))
    (nested : ∀ t ∈ threads, sectionsNested 0 t.records = true)
    (blocks : ∀ t ∈ threads, blockIds t.records ≠ []) (left i : Nat)
    (all : i + left = threads.length) (e : Engine SinucaTraceReader)
    (begun : Begun threads i e.traceReader)
    (calm : Calm threads.length e.traceReader.toReplayControl) :
    (Engine.setupLoop sinucaTraceReader (List.range' i left) e).1 = false ↔
      ∀ j (present : j < threads.length), i ≤ j →
        StartsAwake threads.length j threads[j].records := by
  induction left generalizing i e with
  | zero =>
    refine ⟨fun _ j present late => ?_, fun _ => rfl⟩
    omega
  | succ left ih =>
    have inRange : i < threads.length := by omega
    obtain ⟨e', result, reader⟩ := setupLoop_cons sinucaTraceReader i (List.range' (i + 1) left) e
    obtain ⟨found, after⟩ := begun.fetch calm inRange (nested _ (List.getElem_mem inRange))
      (blocks _ (List.getElem_mem inRange)) (e.fetchBuffers i)
    change (e.traceReader.fetch (e.fetchBuffers i) i).1 = .ok ↔ _ at found
    rw [List.range'_succ, result]
    change (decide ((e.traceReader.fetch (e.fetchBuffers i) i).1 ≠ .ok) || _) = false ↔ _
    change e'.traceReader = (e.traceReader.fetch (e.fetchBuffers i) i).2.2 at reader
    by_cases ok : (e.traceReader.fetch (e.fetchBuffers i) i).1 = .ok
    · obtain ⟨begun', opening⟩ := after ok
      rw [← reader] at begun' opening
      simp only [ok, ne_eq, not_true_eq_false, decide_false, Bool.false_or]
      have here : StartsAwake threads.length i threads[i].records ↔
          (i + 1 < threads.length → openSections (leading threads[i].records) = 0) :=
        ⟨fun starts => starts.2, fun closed => ⟨found.mp ok, closed⟩⟩
      by_cases closed : openSections (leading threads[i].records) = 0
      · have calm' : Calm threads.length e'.traceReader.toReplayControl := by
          refine ⟨?_, opening.calm closed⟩
          rw [opening.running.count, closed]
          rfl
        rw [ih (i + 1) (by omega) e' begun' calm']
        constructor
        · intro later j present late
          rcases Nat.eq_or_lt_of_le late with rfl | late
          · exact here.mpr fun _ => closed
          · exact later j present late
        · intro starts j present late
          exact starts j present (by omega)
      · -- The next thread sleeps until this section closes.
        cases left with
        | zero =>
          refine ⟨fun _ j present late => ?_, fun _ => rfl⟩
          obtain rfl : j = i := by omega
          exact here.mpr fun more => by omega
        | succ left =>
          have inRange' : i + 1 < threads.length := by omega
          have asleep := opening.running.asleep (Nat.pos_of_ne_zero closed) (i + 1) inRange'
            (by omega)
          obtain ⟨e'', result', _⟩ := setupLoop_cons sinucaTraceReader (i + 1)
            (List.range' (i + 1 + 1) left) e'
          have fails := begun'.asleep inRange' asleep (e'.fetchBuffers (i + 1))
          rw [List.range'_succ, result']
          change (decide ((e'.traceReader.fetch (e'.fetchBuffers (i + 1)) (i + 1)).1 ≠ .ok) || _) =
            false ↔ _
          simp only [fails, ne_eq, not_false_eq_true, decide_true, Bool.true_or,
            Bool.true_eq_false, false_iff]
          intro starts
          exact closed ((starts i inRange (Nat.le_refl i)).2 inRange')
    · simp only [ok, ne_eq, not_false_eq_true, decide_true, Bool.true_or, Bool.true_eq_false,
        false_iff]
      intro starts
      exact ok (found.mpr (starts i inRange (Nat.le_refl i)).1)

theorem begun_openTrace (threads : List (ThreadTrace d)) (garbage : Nat → BitVec 64) :
    Begun threads 0 (.openTrace d (threads.map ThreadTrace.files) garbage) := by
  have replaying := replaying_openTrace threads garbage
  have files : ∀ tid (present : tid < threads.length),
      (threads.map ThreadTrace.files).getD tid default = threads[tid].files := by
    intro tid present
    rw [List.getD_eq_getElem?_getD, List.getElem?_map, List.getElem?_eq_getElem present]
    rfl
  constructor
  · exact replaying.dictionary
  · exact fun tid present => ⟨_, replaying.follows tid present⟩
  · intro tid present _
    refine ⟨?_, rfl⟩
    simp only [SinucaTraceReader.openTrace, files tid present]
    exact DynamicTraceReader.pending_openFile _
  · exact fun tid _ => rfl
  · simp [SinucaTraceReader.openTrace]
  · rfl
  · rfl

/-- For every set of traces in which each thread has a basic block and sections are well
nested: the simulation starts exactly when every thread gets to its first basic block in
its turn. -/
theorem simulation_starts (threads : List (ThreadTrace d))
    (nested : ∀ t ∈ threads, sectionsNested 0 t.records = true)
    (blocks : ∀ t ∈ threads, blockIds t.records ≠ []) (garbage : Nat → BitVec 64)
    (buffers : Nat → InstructionPacket) (connections : Nat → FetchConnection) :
    (Engine.setupSimulation sinucaTraceReader
        (.openTrace d (threads.map ThreadTrace.files) garbage) buffers connections
        threads.length).1 = false ↔
      ∀ i (present : i < threads.length), StartsAwake threads.length i threads[i].records := by
  have begun := begun_openTrace threads garbage
  unfold Engine.setupSimulation
  rw [List.range_eq_range', setupLoop_starts threads nested blocks threads.length 0 (by simp) _
    begun ⟨rfl, fun _ _ => rfl⟩]
  exact ⟨fun starts i present => starts i present (Nat.zero_le i), fun starts i present _ =>
    starts i present⟩

end Setup

/-- A barrier, and the one instruction. -/
def barrierFirst : ThreadTrace oneInstruction where
  records := [.threadEvent 0, .basicBlock 0]
  groups := []
  inRange := by
    intro r member
    rcases List.mem_cons.mp member with rfl | member
    · exact .inr rfl
    · cases List.mem_singleton.mp member
      exact .inl ⟨rfl, by decide⟩
  onePerAccess := by decide

theorem simulation_starts_alone :
    (Engine.setupSimulation sinucaTraceReader
        (.openTrace oneInstruction [barrierFirst.files] fun _ => 0) (fun _ => {})
        (fun _ => .createBuffers 0) 1).1 = false ↔
      ∀ i (present : i < 1), StartsAwake 1 i [barrierFirst][i].records :=
  simulation_starts [barrierFirst] (by decide) (by decide) (fun _ => 0) (fun _ => {})
    (fun _ => .createBuffers 0)

/-- The first record of thread 0 is a barrier: it sleeps, and that is an error. -/
theorem simulation_fails_at_barrier :
    (∀ t ∈ [barrierFirst, barrierFirst], sectionsNested 0 t.records = true) ∧
    (∀ t ∈ [barrierFirst, barrierFirst], blockIds t.records ≠ []) ∧
    (Engine.setupSimulation sinucaTraceReader
      (.openTrace oneInstruction ([barrierFirst, barrierFirst].map ThreadTrace.files) fun _ => 0)
      (fun _ => {}) (fun _ => .createBuffers 0) 2).1 = true :=
  ⟨by decide, by decide, by decide +kernel⟩

end Sinuca3.Guarantees
