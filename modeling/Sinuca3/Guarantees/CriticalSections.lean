import Sinuca3.Source.Tracer.BlockSearch

/-!
# Mutual exclusion of critical sections

While a thread has a critical section open, no other thread is handed an
instruction. The sections a thread has open are counted on the records it has
consumed; the shared counter equals that count for the one thread that may run,
and everyone else is asleep.
-/
namespace Sinuca3.Guarantees
open Sinuca3.Source Lib

def depthAfter (depth : Nat) (r : DynamicTraceRecord) : Nat :=
  match r.event with
  | some .criticalStart => depth + 1
  | some .criticalEnd => depth - 1
  | _ => depth

theorem depthAfter_of_silent (depth : Nat) {r : DynamicTraceRecord} (silent : r.event = none) :
    depthAfter depth r = depth := by
  unfold depthAfter
  rw [silent]

/-- Critical sections open after a list of records. -/
def openSections (records : List DynamicTraceRecord) : Nat := records.foldl depthAfter 0

/-- Starting with `depth` sections open, no end lacks its start, and no barrier
stands inside a section. -/
def wellNested : Nat → List DynamicTraceRecord → Bool
  | _, [] => true
  | depth, r :: rest =>
    (match r.event with
      | some .criticalEnd => decide (0 < depth)
      | some .barrierSync => decide (depth = 0)
      | _ => true) && wellNested (depthAfter depth r) rest

/-- The control while thread `tid` runs with `depth` sections open and nobody else
has one. -/
structure Running (n tid depth : Nat) (c : ReplayControl) : Prop where
  count : c.criticalCont = depth
  asleep : 0 < depth → ∀ u < n, u ≠ tid → c.isThreadAwake u = false

/-- At most one thread has sections open, and while it has, the others sleep. -/
structure Exclusive (n : Nat) (depth : Nat → Nat) (c : ReplayControl) : Prop where
  idle : (∀ t < n, depth t = 0) → c.criticalCont = 0
  alone : ∀ t < n, 0 < depth t →
    c.criticalCont = depth t ∧ ∀ u < n, u ≠ t → depth u = 0 ∧ c.isThreadAwake u = false

/-- A thread that may run is the one with sections open, if anyone has. -/
theorem Exclusive.running {n tid : Nat} {depth : Nat → Nat} {c : ReplayControl}
    (before : Exclusive n depth c) (inRange : tid < n) (awake : c.isThreadAwake tid = true) :
    Running n tid (depth tid) c ∧ ∀ u < n, u ≠ tid → depth u = 0 := by
  have others : ∀ u < n, u ≠ tid → depth u = 0 := by
    intro u present other
    by_contra inside
    have asleep := ((before.alone u present (Nat.pos_of_ne_zero inside)).2 tid inRange
      (Ne.symm other)).2
    simp [awake] at asleep
  refine ⟨⟨?_, fun inside u present other => ((before.alone tid inRange inside).2 u present
    other).2⟩, others⟩
  by_cases inside : 0 < depth tid
  · exact (before.alone tid inRange inside).1
  · have zero : depth tid = 0 := by omega
    rw [zero]
    refine before.idle fun t present => ?_
    by_cases here : t = tid
    · exact here ▸ zero
    · exact others t present here

theorem Running.exclusive {n tid : Nat} {depth : Nat → Nat} {c : ReplayControl}
    (after : Running n tid (depth tid) c) (inRange : tid < n)
    (others : ∀ u < n, u ≠ tid → depth u = 0) : Exclusive n depth c := by
  refine ⟨fun none => ?_, fun t present inside => ?_⟩
  · rw [after.count, none tid inRange]
    rfl
  · have here : t = tid := by
      by_contra other
      rw [others t present other] at inside
      exact Nat.lt_irrefl 0 inside
    subst here
    exact ⟨after.count, fun u present' other => ⟨others u present' other,
      after.asleep inside u present' other⟩⟩

/-- One event of the running thread, where no section ends that has not started and no
barrier stands inside one. -/
theorem handleEvent_depth {n tid depth : Nat} {c : ReplayControl} (before : Running n tid depth c)
    (r : DynamicTraceRecord) (e : ThreadEventType) (event : r.event = some e)
    (started : e = .criticalEnd → 0 < depth) (outside : e = .barrierSync → depth = 0) :
    Running n tid (depthAfter depth r) (c.handleEvent tid e).1 := by
  simp only [event, depthAfter]
  cases e with
  | abruptEnd => exact ⟨before.count, before.asleep⟩
  | unknown => exact before
  | criticalStart =>
    refine ⟨?_, fun _ u _ other => if_neg other⟩
    simp only [ReplayControl.handleEvent, before.count]
    push_cast
    rfl
  | criticalEnd =>
    have inside : 0 < depth := started rfl
    have count : c.criticalCont - 1 = ((depth - 1 : Nat) : Int) := by
      rw [before.count]
      omega
    simp only [ReplayControl.handleEvent]
    split
    · rename_i closed
      refine ⟨count, fun still => ?_⟩
      rw [count] at closed
      omega
    · rw [if_neg (by omega)]
      exact ⟨count, fun _ => before.asleep inside⟩
  | barrierSync =>
    have none : depth = 0 := outside rfl
    subst none
    simp only [ReplayControl.handleEvent]
    split <;> exact ⟨before.count, fun inside => absurd inside (Nat.lt_irrefl 0)⟩

theorem handleEvent_running {n tid depth : Nat} {c : ReplayControl} (before : Running n tid depth c)
    (r : DynamicTraceRecord) (rest : List DynamicTraceRecord) (e : ThreadEventType)
    (event : r.event = some e) (nested : wellNested depth (r :: rest) = true) :
    Running n tid (depthAfter depth r) (c.handleEvent tid e).1 ∧
      wellNested (depthAfter depth r) rest = true := by
  rw [wellNested, Bool.and_eq_true] at nested
  obtain ⟨here, later⟩ := nested
  refine ⟨handleEvent_depth before r e event ?_ ?_, later⟩
  · rintro rfl
    simpa [event] using here
  · rintro rfl
    simpa [event] using here

/-- A whole search of the running thread. -/
theorem replayEvents_running {n tid depth : Nat} {c : ReplayControl}
    (before : Running n tid depth c) (records : List DynamicTraceRecord)
    (nested : wellNested depth records = true) (search : BlockSearch)
    (rest : List DynamicTraceRecord) (c' : ReplayControl)
    (replayed : replayEvents tid records c = (search, rest, c')) :
    ∃ seen, records = seen ++ rest ∧ Running n tid (seen.foldl depthAfter depth) c' ∧
      wellNested (seen.foldl depthAfter depth) rest = true := by
  induction records generalizing c depth with
  | nil =>
    cases replayed
    exact ⟨[], rfl, before, nested⟩
  | cons r tail ih =>
    have step := replayEvents_cons tid r tail c
    generalize replayEvents tid (r :: tail) c = result at step replayed
    cases step with
    | block kind =>
      have silent := depthAfter_of_silent depth (DynamicTraceRecord.event_of_block kind)
      cases replayed
      rw [wellNested, silent, Bool.and_eq_true] at nested
      exact ⟨[r], rfl, by simpa [silent] using before, by simpa [silent] using nested.2⟩
    | unknown code kind =>
      have silent := depthAfter_of_silent depth (DynamicTraceRecord.event_of_unknown kind)
      cases replayed
      rw [wellNested, silent, Bool.and_eq_true] at nested
      exact ⟨[r], rfl, by simpa [silent] using ⟨before.count, before.asleep⟩,
        by simpa [silent] using nested.2⟩
    | stops kind e code c' handled =>
      obtain ⟨after, nested'⟩ := handleEvent_running before r tail e
        (DynamicTraceRecord.event_of_threadEvent kind code) nested
      rw [handled] at after
      cases replayed
      exact ⟨[r], rfl, after, nested'⟩
    | goesOn kind e code c' handled =>
      obtain ⟨after, nested'⟩ := handleEvent_running before r tail e
        (DynamicTraceRecord.event_of_threadEvent kind code) nested
      rw [handled] at after
      obtain ⟨seen, split, after', nested''⟩ := ih after nested' replayed
      exact ⟨r :: seen, by rw [split]; rfl, after', nested''⟩

/-- The invariant of a replay of well-nested traces. -/
structure Guarded (threads : List ThreadFiles) (s : SinucaTraceReader) : Prop where
  inFiles : s.InFiles threads
  exclusive : Exclusive threads.length (fun u => openSections (s.consumed threads u))
    s.toReplayControl
  nested : ∀ u < threads.length,
    wellNested (openSections (s.consumed threads u)) (s.pending u) = true

theorem step_preserves_guarded {threads : List ThreadFiles} {s : SinucaTraceReader}
    (before : Guarded threads s) (call : FetchCall) (inRange : call.tid < threads.length) :
    Guarded threads (replayStep s call).1 := by
  have inFiles := SinucaTraceReader.step_preserves_inFiles before.inFiles call
  have cases := (s.fetch_records call.ret call.tid before.inFiles.consistent).1
  change SinucaTraceReader.RecordsCase s call.tid _ (replayStep s call).1 at cases
  generalize (replayStep s call).1 = s' at cases inFiles ⊢
  cases cases with
  | kept control pending _ =>
    have consumed : ∀ u, s'.consumed threads u = s.consumed threads u :=
      fun u => SinucaTraceReader.consumed_congr (pending u)
    refine ⟨inFiles, ?_, fun u present => ?_⟩
    · simpa only [consumed, control] using before.exclusive
    · simpa only [consumed, pending] using before.nested u present
  | searched _ awake search replayed others _ =>
    obtain ⟨running, zero⟩ := before.exclusive.running inRange awake
    obtain ⟨seen, split, running', nested'⟩ := replayEvents_running running _
      (before.nested call.tid inRange) _ _ _ replayed
    have mine := before.inFiles.consumed_append split
    have consumed : ∀ u, u ≠ call.tid → s'.consumed threads u = s.consumed threads u :=
      fun u other => SinucaTraceReader.consumed_congr (others u other)
    have count : openSections (s'.consumed threads call.tid) =
        seen.foldl depthAfter (openSections (s.consumed threads call.tid)) := by
      rw [mine, openSections, List.foldl_append]
      rfl
    rw [← count] at running' nested'
    refine ⟨inFiles, running'.exclusive inRange fun u present other => ?_, fun u present => ?_⟩
    · simpa only [consumed u other] using zero u present other
    · by_cases here : u = call.tid
      · exact here ▸ nested'
      · rw [consumed u here, others u here]
        exact before.nested u present

theorem guarded_openTrace (d : StaticDictionary) (threads : List ThreadFiles)
    (garbage : Nat → BitVec 64) (nested : ∀ f ∈ threads, wellNested 0 f.dynamic = true) :
    Guarded threads (.openTrace d threads garbage) := by
  have consumed := SinucaTraceReader.consumed_openTrace d threads garbage
  refine ⟨SinucaTraceReader.inFiles_openTrace d threads garbage, ⟨fun _ => rfl, ?_⟩, ?_⟩
  · intro t _ inside
    rw [consumed] at inside
    exact absurd inside (Nat.lt_irrefl 0)
  · intro u present
    rw [consumed]
    have member : threads[u] ∈ threads := List.getElem_mem present
    simpa [SinucaTraceReader.pending, SinucaTraceReader.openTrace, present, openSections] using
      nested _ member

theorem replay_guarded (d : StaticDictionary) (threads : List ThreadFiles)
    (garbage : Nat → BitVec 64) (nested : ∀ f ∈ threads, wellNested 0 f.dynamic = true)
    (calls : List FetchCall) (inRange : ∀ call ∈ calls, call.tid < threads.length) :
    Guarded threads (replay d threads garbage calls).1 :=
  Machine.run_induction_of_meets replayStep (fun _ call => call.tid < threads.length)
    (P := fun s _ _ => Guarded threads s)
    (guarded_openTrace d threads garbage nested)
    (fun _ _ _ call before here => step_preserves_guarded before call here)
    calls (Machine.meets_of_forall replayStep _ calls inRange)

/-- In every state a replay of well-nested traces reaches, if thread `t` has a
section open then a call for any other thread returns no instruction. -/
theorem critical_section_exclusive (d : StaticDictionary) (threads : List ThreadFiles)
    (garbage : Nat → BitVec 64) (nested : ∀ f ∈ threads, wellNested 0 f.dynamic = true)
    (calls : List FetchCall) (inRange : ∀ call ∈ calls, call.tid < threads.length)
    (t u : Nat) (present : t < threads.length) (present' : u < threads.length) (other : u ≠ t)
    (inside : 0 < openSections ((replay d threads garbage calls).1.consumed threads t))
    (ret : InstructionPacket) :
    ((replay d threads garbage calls).1.fetch ret u).1 ≠ .ok := by
  intro ok
  have guarded := replay_guarded d threads garbage nested calls inRange
  have asleep := ((guarded.exclusive.alone t present inside).2 u present' other).2
  have awake : (replay d threads garbage calls).1.isThreadAwake u = true := by
    cases (SinucaTraceReader.fetch_records _ ret u guarded.inFiles.consistent).1 with
    | kept _ _ awake => exact awake ok
    | searched _ awake => exact awake
  simp [awake] at asleep

theorem critical_section_exclusive_two_threads :
    ((replay oneInstruction
      [⟨[.threadEvent 1, .basicBlock 0, .threadEvent 2], []⟩, ⟨[.basicBlock 0], []⟩]
      (fun _ => 0) [⟨{}, 0⟩]).1.fetch {} 1).1 ≠ .ok :=
  critical_section_exclusive oneInstruction _ (fun _ => 0) (by decide) [⟨{}, 0⟩] (by simp) 0 1
    (by decide) (by decide) (by decide) (by decide +kernel) {}

end Sinuca3.Guarantees
