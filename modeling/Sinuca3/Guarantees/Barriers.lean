import Mathlib.Data.Finset.Card
import Sinuca3.Guarantees.CriticalSections

/-!
# Barriers

A thread that reaches a barrier sleeps until every thread has reached it, but the
flag it sleeps on is the one critical sections use: closing the last open section
wakes the threads that wait at a barrier too. Replays in which no call does that
keep every thread behind the barriers of the others.
-/
namespace Sinuca3.Guarantees
open Sinuca3.Source Lib

/-- Barriers among a list of records. -/
def barriers (records : List DynamicTraceRecord) : Nat :=
  records.countP fun r => decide (r.event = some .barrierSync)

/-- Whether a search by `tid` closes the last open critical section while a thread
waits at a barrier. -/
def wakesWaiters (tid : Nat) : List DynamicTraceRecord → ReplayControl → Bool
  | [], _ => false
  | r :: rest, c =>
    match r.event with
    | none => false
    | some e =>
      decide (e = .criticalEnd ∧ c.criticalCont = 1 ∧ c.barrierCont ≠ 0) ||
        match c.handleEvent tid e with
        | (_, true) => false
        | (c, false) => wakesWaiters tid rest c

/-- The calls after which barriers hold: on an existing thread, without waking a
thread that waits at a barrier. -/
def KeepsWaiters (n : Nat) (s : SinucaTraceReader) (call : FetchCall) : Prop :=
  call.tid < n ∧ (s.searchesBlock call.tid = true →
    wakesWaiters call.tid (s.pending call.tid) s.toReplayControl = false)

/-- After `calls`, if `call` returns an instruction recorded after the `k`-th
barrier of its thread, every thread has consumed its own `k`-th barrier. -/
def BarrierSafe (d : StaticDictionary) (threads : List ThreadFiles) (garbage : Nat → BitVec 64)
    (calls : List FetchCall) (call : FetchCall) : Prop :=
  ((replay d threads garbage calls).1.fetch call.ret call.tid).1 = .ok →
    ∀ k ≤ barriers ((replay d threads garbage (calls ++ [call])).1.consumed threads call.tid),
      ∀ u < threads.length,
        k ≤ barriers ((replay d threads garbage (calls ++ [call])).1.consumed threads u)

/-- In a round every thread has passed the same number of barriers, but for those
asleep at the next one, which the shared counter counts. -/
structure Round (n round : Nat) (passed : Nat → Nat) (c : ReplayControl) : Prop where
  total : c.totalThreads = n
  place : ∀ u < n, passed u = round ∨ passed u = round + 1 ∧ c.isThreadAwake u = false
  count : c.barrierCont = ((Finset.range n).filter fun u => passed u = round + 1).card

namespace Round

variable {n round : Nat} {passed : Nat → Nat} {c : ReplayControl}

theorem awake_place (before : Round n round passed c) {u : Nat} (present : u < n)
    (awake : c.isThreadAwake u = true) : passed u = round := by
  rcases before.place u present with here | ⟨_, asleep⟩
  · exact here
  · simp [awake] at asleep

/-- With nobody counted, nobody waits. -/
theorem place_of_count (before : Round n round passed c) (none : c.barrierCont = 0) :
    ∀ u < n, passed u = round := by
  intro u present
  have empty : ((Finset.range n).filter fun u => passed u = round + 1) = ∅ := by
    rw [← Finset.card_eq_zero]
    have := before.count
    omega
  rcases before.place u present with here | ⟨waits, _⟩
  · exact here
  · have member : u ∈ (Finset.range n).filter fun u => passed u = round + 1 := by
      simp [present, waits]
    rw [empty] at member
    simp at member

/-- Arriving at the barrier adds the thread to those counted. -/
theorem waiting_update {tid : Nat} (present : tid < n) (here : passed tid = round) :
    ((Finset.range n).filter fun u => Function.update passed tid (round + 1) u = round + 1).card =
      ((Finset.range n).filter fun u => passed u = round + 1).card + 1 := by
  have grown : ((Finset.range n).filter fun u =>
      Function.update passed tid (round + 1) u = round + 1) =
      insert tid ((Finset.range n).filter fun u => passed u = round + 1) := by
    ext u
    by_cases same : u = tid
    · subst same
      simp [present]
    · simp [same]
  rw [grown, Finset.card_insert_of_notMem (by simp [here])]

/-- The last thread to arrive starts the next round. -/
theorem complete {tid : Nat} (before : Round n round passed c) (present : tid < n)
    (here : passed tid = round) (last : c.barrierCont + 1 = n) :
    ∀ u < n, Function.update passed tid (round + 1) u = round + 1 := by
  have full := waiting_update present here
  have all : ((Finset.range n).filter fun u =>
      Function.update passed tid (round + 1) u = round + 1) = Finset.range n := by
    apply Finset.eq_of_subset_of_card_le (Finset.filter_subset _ _)
    have := before.count
    rw [Finset.card_range]
    omega
  intro u inRange
  have member : u ∈ Finset.range n := by simpa using inRange
  rw [← all] at member
  exact (Finset.mem_filter.mp member).2

end Round

/-- Fewer than all threads wait, and outside of critical sections only those that wait
are asleep. -/
structure Alert (n round : Nat) (passed : Nat → Nat) (c : ReplayControl) : Prop where
  fewer : c.barrierCont < n
  sleepers : c.criticalCont = 0 → ∀ u < n, c.isThreadAwake u = false → passed u = round + 1

/-- One event of an awake thread, when it wakes no waiting thread. -/
theorem handleEvent_round {n round tid : Nat} {passed : Nat → Nat} {c : ReplayControl}
    (before : Round n round passed c) (present : tid < n) (awake : c.isThreadAwake tid = true)
    (e : ThreadEventType)
    (harmless : ¬ (e = .criticalEnd ∧ c.criticalCont = 1 ∧ c.barrierCont ≠ 0)) :
    ∃ round', Round n round' (Function.update passed tid
        (passed tid + if e = .barrierSync then 1 else 0)) (c.handleEvent tid e).1 ∧
      ((c.handleEvent tid e).2 = false → (c.handleEvent tid e).1.isThreadAwake tid = true) ∧
      (0 ≤ c.criticalCont → Alert n round passed c →
        Alert n round' (Function.update passed tid
          (passed tid + if e = .barrierSync then 1 else 0)) (c.handleEvent tid e).1) := by
  have here := before.awake_place present awake
  cases e with
  | abruptEnd =>
    simp only [reduceCtorEq, if_false, Nat.add_zero, Function.update_eq_self]
    exact ⟨round, ⟨before.total, before.place, before.count⟩, fun _ => awake,
      fun _ alert => ⟨alert.fewer, alert.sleepers⟩⟩
  | unknown =>
    simp only [reduceCtorEq, if_false, Nat.add_zero, Function.update_eq_self]
    exact ⟨round, ⟨before.total, before.place, before.count⟩, fun _ => awake,
      fun _ alert => ⟨alert.fewer, alert.sleepers⟩⟩
  | criticalStart =>
    simp only [ReplayControl.handleEvent, reduceCtorEq, if_false, Nat.add_zero,
      Function.update_eq_self]
    refine ⟨round, ⟨before.total, fun u inRange => ?_, before.count⟩, fun _ => by simp [awake],
      fun nonneg alert => ⟨alert.fewer, fun none => ?_⟩⟩
    · by_cases mine : u = tid
      · subst mine
        exact .inl here
      · rcases before.place u inRange with same | ⟨ahead, _⟩
        · exact .inl same
        · exact .inr ⟨ahead, if_neg mine⟩
    · dsimp only at none
      omega
  | criticalEnd =>
    simp only [ReplayControl.handleEvent, reduceCtorEq, if_false, Nat.add_zero,
      Function.update_eq_self]
    split
    · rename_i closed
      have none : c.barrierCont = 0 := by
        by_contra waiting
        exact harmless ⟨rfl, by omega, waiting⟩
      refine ⟨round, ⟨before.total, fun u inRange => .inl (before.place_of_count none u inRange),
        before.count⟩, fun _ => rfl, fun _ alert => ⟨alert.fewer, fun _ u _ asleep => ?_⟩⟩
      cases asleep
    · rename_i still
      split <;> exact ⟨round, ⟨before.total, before.place, before.count⟩, fun _ => awake,
        fun _ alert => ⟨alert.fewer, fun none => absurd none still⟩⟩
  | barrierSync =>
    have count := Round.waiting_update present here
    simp only [ReplayControl.handleEvent, if_true, here]
    split
    · rename_i last
      have all := before.complete present here (by rw [← before.total]; exact last)
      refine ⟨round + 1, ⟨before.total, fun u inRange => .inl (all u inRange), ?_⟩, fun _ => rfl,
        fun _ _ => ⟨by dsimp only; omega, fun _ u _ asleep => by cases asleep⟩⟩
      have empty : ((Finset.range n).filter fun u =>
          Function.update passed tid (round + 1) u = round + 1 + 1) = ∅ := by
        apply Finset.filter_eq_empty_iff.mpr
        intro u member
        rw [all u (by simpa using member)]
        omega
      rw [empty]
      rfl
    · rename_i more
      have total := before.total
      refine ⟨round, ⟨before.total, fun u inRange => ?_, ?_⟩, by simp, fun _ alert => ⟨?_, ?_⟩⟩
      · by_cases mine : u = tid
        · subst mine
          exact .inr ⟨by simp, by simp⟩
        · simpa [mine] using before.place u inRange
      · rw [count, before.count]
        push_cast
        rfl
      · have fewer := alert.fewer
        dsimp only
        omega
      · intro outside u inRange asleep
        by_cases mine : u = tid
        · subst mine
          simp
        · rw [Function.update_of_ne mine]
          exact alert.sleepers outside u inRange (by simpa [mine] using asleep)

theorem barriers_append (first second : List DynamicTraceRecord) :
    barriers (first ++ second) = barriers first + barriers second := List.countP_append ..

theorem barriers_of_event {r : DynamicTraceRecord} {e : ThreadEventType}
    (event : r.event = some e) : barriers [r] = if e = .barrierSync then 1 else 0 := by
  simp [barriers, event, List.countP_cons]

theorem barriers_of_silent {r : DynamicTraceRecord} (silent : r.event = none) :
    barriers [r] = 0 := by
  simp [barriers, silent]

/-- A whole search of an awake thread that wakes no waiting thread. -/
theorem replayEvents_round {n round tid : Nat} {passed : Nat → Nat} {c : ReplayControl}
    (before : Round n round passed c) (present : tid < n) (awake : c.isThreadAwake tid = true)
    (records : List DynamicTraceRecord) (harmless : wakesWaiters tid records c = false)
    (search : BlockSearch) (rest : List DynamicTraceRecord) (c' : ReplayControl)
    (replayed : replayEvents tid records c = (search, rest, c')) :
    ∃ seen round', records = seen ++ rest ∧
      Round n round' (Function.update passed tid (passed tid + barriers seen)) c' ∧
      (search.missing = false → c'.isThreadAwake tid = true) := by
  induction records generalizing c round passed with
  | nil =>
    cases replayed
    exact ⟨[], round, rfl, by simpa [barriers] using before, fun _ => awake⟩
  | cons r tail ih =>
    have step := replayEvents_cons tid r tail c
    generalize replayEvents tid (r :: tail) c = result at step replayed
    cases step with
    | block kind =>
      have silent := barriers_of_silent (DynamicTraceRecord.event_of_block kind)
      cases replayed
      exact ⟨[r], round, rfl, by simpa [silent] using before, fun _ => awake⟩
    | unknown code kind =>
      have silent := barriers_of_silent (DynamicTraceRecord.event_of_unknown kind)
      cases replayed
      exact ⟨[r], round, rfl, by simpa [silent] using ⟨before.total, before.place, before.count⟩,
        by simp [BlockSearch.missing]⟩
    | stops kind e code c' handled =>
      have event := DynamicTraceRecord.event_of_threadEvent kind code
      simp only [wakesWaiters, event, Bool.or_eq_false_iff, decide_eq_false_iff_not] at harmless
      obtain ⟨round', after, _⟩ := handleEvent_round before present awake e harmless.1
      rw [← barriers_of_event event, handled] at after
      cases replayed
      exact ⟨[r], round', rfl, after, by simp [BlockSearch.missing]⟩
    | goesOn kind e code c' handled =>
      have event := DynamicTraceRecord.event_of_threadEvent kind code
      simp only [wakesWaiters, event, Bool.or_eq_false_iff, decide_eq_false_iff_not] at harmless
      obtain ⟨round', after, awake', _⟩ := handleEvent_round before present awake e harmless.1
      rw [← barriers_of_event event] at after
      rw [handled] at after awake' harmless
      obtain ⟨seen, round'', split, after', found⟩ := ih after (awake' rfl) harmless.2 replayed
      refine ⟨r :: seen, round'', by rw [split]; rfl, ?_, found⟩
      have total : barriers (r :: seen) = barriers [r] + barriers seen := barriers_append [r] seen
      simpa [total, Nat.add_assoc] using after'

/-- The barriers that threads have passed after a search of one of them. -/
theorem barriers_consumed {threads : List ThreadFiles} {s s' : SinucaTraceReader} {tid : Nat}
    {seen : List DynamicTraceRecord} (mine : s'.consumed threads tid = s.consumed threads tid ++ seen)
    (others : ∀ u, u ≠ tid → s'.consumed threads u = s.consumed threads u) :
    (fun u => barriers (s'.consumed threads u)) =
      Function.update (fun u => barriers (s.consumed threads u)) tid
        (barriers (s.consumed threads tid) + barriers seen) := by
  funext u
  by_cases here : u = tid
  · subst here
    simp [mine, barriers_append]
  · rw [Function.update_of_ne here, others u here]

/-- The invariant of a replay in which no call wakes a waiting thread. -/
structure InRounds (threads : List ThreadFiles) (s : SinucaTraceReader) : Prop where
  inFiles : s.InFiles threads
  rounds : ∃ round, Round threads.length round (fun u => barriers (s.consumed threads u))
    s.toReplayControl

/-- A call keeps the rounds, and returns an instruction to a thread of the current
round only. -/
theorem fetch_inRounds {threads : List ThreadFiles} {s : SinucaTraceReader}
    (before : InRounds threads s) (call : FetchCall) (keeps : KeepsWaiters threads.length s call) :
    ∃ s', (replayStep s call).1 = s' ∧ s'.InFiles threads ∧
      ∃ round, Round threads.length round (fun u => barriers (s'.consumed threads u))
        s'.toReplayControl ∧
      ((s.fetch call.ret call.tid).1 = .ok → s'.isThreadAwake call.tid = true) := by
  have inFiles := SinucaTraceReader.step_preserves_inFiles before.inFiles call
  have cases := (s.fetch_records call.ret call.tid before.inFiles.consistent).1
  change SinucaTraceReader.RecordsCase s call.tid _ (replayStep s call).1 at cases
  obtain ⟨round, rounds⟩ := before.rounds
  refine ⟨_, rfl, inFiles, ?_⟩
  generalize (replayStep s call).1 = s' at cases inFiles ⊢
  cases cases with
  | kept control pending awake =>
    have consumed : ∀ u, s'.consumed threads u = s.consumed threads u :=
      fun u => SinucaTraceReader.consumed_congr (pending u)
    simp only [consumed, control]
    exact ⟨round, rounds, awake⟩
  | searched searches awake search replayed others found =>
    obtain ⟨seen, round', split, after, awake'⟩ := replayEvents_round rounds keeps.1 awake _
      (keeps.2 searches) _ _ _ replayed
    have passed := barriers_consumed (before.inFiles.consumed_append split)
      fun u other => SinucaTraceReader.consumed_congr (others u other)
    rw [passed]
    exact ⟨round', after, fun ok => awake' (found ok)⟩

theorem inRounds_openTrace (d : StaticDictionary) (threads : List ThreadFiles)
    (garbage : Nat → BitVec 64) : InRounds threads (.openTrace d threads garbage) := by
  have none : ∀ u, barriers ((SinucaTraceReader.openTrace d threads garbage).consumed threads u) =
      0 := fun u => congrArg barriers (SinucaTraceReader.consumed_openTrace d threads garbage u)
  refine ⟨SinucaTraceReader.inFiles_openTrace d threads garbage, 0, rfl, fun u _ => .inl (none u), ?_⟩
  simp only [none]
  simp [SinucaTraceReader.openTrace]

theorem replay_inRounds (d : StaticDictionary) (threads : List ThreadFiles)
    (garbage : Nat → BitVec 64) (calls : List FetchCall)
    (keeps : Machine.Meets replayStep (KeepsWaiters threads.length)
      (.openTrace d threads garbage) calls) : InRounds threads (replay d threads garbage calls).1 := by
  refine Machine.run_induction_of_meets replayStep _ (P := fun s _ _ => InRounds threads s)
    (inRounds_openTrace d threads garbage) (fun s _ _ call before here => ?_) calls keeps
  obtain ⟨s', same, inFiles, round, rounds, _⟩ := fetch_inRounds before call here
  exact same ▸ ⟨inFiles, round, rounds⟩

/-- In every replay whose calls wake no thread that waits at a barrier, barriers
hold. -/
theorem barrier_safe (d : StaticDictionary) (threads : List ThreadFiles)
    (garbage : Nat → BitVec 64) (calls : List FetchCall) (call : FetchCall)
    (keeps : Machine.Meets replayStep (KeepsWaiters threads.length)
      (.openTrace d threads garbage) (calls ++ [call])) :
    BarrierSafe d threads garbage calls call := by
  obtain ⟨earlier, here⟩ := (Machine.meets_concat ..).mp keeps
  intro ok k passed u inRange
  obtain ⟨s', same, _, round, rounds, awake⟩ :=
    fetch_inRounds (replay_inRounds d threads garbage calls earlier) call here
  have after : (replay d threads garbage (calls ++ [call])).1 = s' := by
    rw [replay, Machine.run_concat]
    exact same
  rw [after] at passed ⊢
  have mine := rounds.awake_place here.1 (awake ok)
  rcases rounds.place u inRange with place | ⟨place, _⟩
  · omega
  · omega

/-- Thread 0 waits at a barrier; thread 1 first passes through a critical section. -/
def barrierAndSection : List ThreadFiles :=
  [{ dynamic := [.threadEvent 0, .basicBlock 0], memory := [] },
    { dynamic := [.threadEvent 1, .threadEvent 2, .basicBlock 0, .threadEvent 0, .basicBlock 0],
      memory := [] }]

/-- Thread 1 leaves its section before thread 0 comes to the barrier, and passes it next;
then thread 0 receives its instruction. -/
theorem barrier_safe_section_first :
    let calls : List FetchCall := [⟨{}, 1⟩, ⟨{}, 0⟩, ⟨{}, 1⟩]
    ((replay oneInstruction barrierAndSection (fun _ => 0) calls).1.fetch {} 0).1 = .ok ∧
      barriers ((replay oneInstruction barrierAndSection (fun _ => 0)
        (calls ++ [⟨{}, 0⟩])).1.consumed barrierAndSection 0) = 1 ∧
      BarrierSafe oneInstruction barrierAndSection (fun _ => 0) calls ⟨{}, 0⟩ := by
  have keeps : Machine.Meets replayStep (KeepsWaiters barrierAndSection.length)
      (.openTrace oneInstruction barrierAndSection fun _ => 0)
      ([⟨{}, 1⟩, ⟨{}, 0⟩, ⟨{}, 1⟩] ++ [⟨{}, 0⟩]) :=
    ⟨⟨by decide, fun _ => by decide +kernel⟩, ⟨by decide, fun _ => by decide +kernel⟩,
      ⟨by decide, fun _ => by decide +kernel⟩, ⟨by decide, fun _ => by decide +kernel⟩, trivial⟩
  exact ⟨by decide +kernel, by decide +kernel,
    barrier_safe oneInstruction barrierAndSection (fun _ => 0) _ ⟨{}, 0⟩ keeps⟩

/-- Closing its section, thread 1 wakes thread 0, which then receives the
instruction after the barrier that thread 1 has not reached. -/
theorem barrier_unsafe :
    (∀ f ∈ barrierAndSection, wellNested 0 f.dynamic = true) ∧
      ¬ BarrierSafe oneInstruction barrierAndSection (fun _ => 0) [⟨{}, 0⟩, ⟨{}, 1⟩] ⟨{}, 0⟩ := by
  refine ⟨by decide, fun safe => ?_⟩
  have early := safe (by decide +kernel) 1 (by decide +kernel) 1 (by decide)
  revert early
  decide +kernel

end Sinuca3.Guarantees
