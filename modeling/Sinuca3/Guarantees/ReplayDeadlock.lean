import Sinuca3.Guarantees.Barriers

/-!
# Deadlock

As long as thread 0 has instructions left, some thread that has instructions left is
awake. It is, in replays in which no call wakes a thread that waits at a barrier: then
those asleep outside of critical sections wait at the barrier of the round, and as all
threads have equally many barriers, one of them has not come to it.
-/
namespace Sinuca3.Guarantees
open Sinuca3.Source Lib

/-- Unless thread 0 has seen the end of its file, an awake thread has not seen the end
of its own. -/
def NotStuck (n : Nat) (s : SinucaTraceReader) : Prop :=
  (s.threadDataVec 0).dynFile.hasReachedEnd = false →
    ∃ t < n, (s.threadDataVec t).dynFile.hasReachedEnd = false ∧ s.isThreadAwake t = true

instance (n : Nat) (s : SinucaTraceReader) : Decidable (NotStuck n s) :=
  inferInstanceAs (Decidable (_ → _))

/-- The awake thread goes to sleep only at a barrier. -/
theorem handleEvent_awake {tid : Nat} {c : ReplayControl} (awake : c.isThreadAwake tid = true)
    (e : ThreadEventType) :
    (c.handleEvent tid e).1.isThreadAwake tid = true ∨ e = .barrierSync := by
  cases e with
  | abruptEnd => exact .inl awake
  | unknown => exact .inl awake
  | criticalStart => exact .inl (by simp [ReplayControl.handleEvent, awake])
  | criticalEnd =>
    unfold ReplayControl.handleEvent
    dsimp only
    split
    · exact .inl rfl
    · split <;> exact .inl awake
  | barrierSync => exact .inr rfl

/-- A whole search of the running thread, which goes to sleep only outside of critical
sections. -/
theorem replayEvents_alert {n round tid depth : Nat} {passed : Nat → Nat} {c : ReplayControl}
    (rounds : Round n round passed c) (alert : Alert n round passed c)
    (running : Running n tid depth c) (present : tid < n) (awake : c.isThreadAwake tid = true)
    (records : List DynamicTraceRecord) (nested : wellNested depth records = true)
    (harmless : wakesWaiters tid records c = false)
    (search : BlockSearch) (rest : List DynamicTraceRecord) (c' : ReplayControl)
    (replayed : replayEvents tid records c = (search, rest, c')) :
    ∃ seen round', records = seen ++ rest ∧
      Round n round' (Function.update passed tid (passed tid + barriers seen)) c' ∧
      Alert n round' (Function.update passed tid (passed tid + barriers seen)) c' ∧
      (c'.isThreadAwake tid = true ∨ seen.foldl depthAfter depth = 0) := by
  induction records generalizing c round passed depth with
  | nil =>
    cases replayed
    exact ⟨[], round, rfl, by simpa [barriers] using rounds, by simpa [barriers] using alert,
      .inl awake⟩
  | cons r tail ih =>
    have step := replayEvents_cons tid r tail c
    generalize replayEvents tid (r :: tail) c = result at step replayed
    cases step with
    | stops kind e code c' handled =>
      have event := DynamicTraceRecord.event_of_threadEvent kind code
      simp only [wakesWaiters, event, Bool.or_eq_false_iff, decide_eq_false_iff_not] at harmless
      obtain ⟨round', rounds', _, alert'⟩ := handleEvent_round rounds present awake e harmless.1
      have alert' := alert' (by rw [running.count]; exact Int.natCast_nonneg depth) alert
      rw [← barriers_of_event event] at rounds' alert'
      have place : (c.handleEvent tid e).1.isThreadAwake tid = true ∨ depthAfter depth r = 0 := by
        apply (handleEvent_awake awake e).imp_right
        intro barrier
        rw [wellNested, Bool.and_eq_true] at nested
        simp only [event, barrier] at nested
        simpa [depthAfter, event, barrier] using nested.1
      rw [handled] at rounds' alert' place
      cases replayed
      exact ⟨[r], round', rfl, rounds', alert', place⟩
    | goesOn kind e code c' handled =>
      have event := DynamicTraceRecord.event_of_threadEvent kind code
      simp only [wakesWaiters, event, Bool.or_eq_false_iff, decide_eq_false_iff_not] at harmless
      obtain ⟨round', rounds', awake', alert'⟩ :=
        handleEvent_round rounds present awake e harmless.1
      have alert' := alert' (by rw [running.count]; exact Int.natCast_nonneg depth) alert
      obtain ⟨running', nested'⟩ := handleEvent_running running r tail e event nested
      rw [← barriers_of_event event] at rounds' alert'
      rw [handled] at rounds' awake' alert' running' harmless
      obtain ⟨seen, round'', split, rounds'', alert'', place⟩ :=
        ih rounds' alert' running' (awake' rfl) nested' harmless.2 replayed
      have total : barriers (r :: seen) = barriers [r] + barriers seen := barriers_append [r] seen
      refine ⟨r :: seen, round'', by rw [split]; rfl, ?_, ?_, place⟩
      · simpa [total, Nat.add_assoc] using rounds''
      · simpa [total, Nat.add_assoc] using alert''
    | block kind =>
      have silent := barriers_of_silent (DynamicTraceRecord.event_of_block kind)
      cases replayed
      exact ⟨[r], round, rfl, by simpa [silent] using rounds, by simpa [silent] using alert,
        .inl awake⟩
    | unknown code kind =>
      have silent := barriers_of_silent (DynamicTraceRecord.event_of_unknown kind)
      cases replayed
      refine ⟨[r], round, rfl, ?_, ?_, .inl awake⟩
      · simpa [silent] using (⟨rounds.total, rounds.place, rounds.count⟩ :
          Round n round passed { c with fetchFailed := true })
      · simpa [silent] using (⟨alert.fewer, alert.sleepers⟩ :
          Alert n round passed { c with fetchFailed := true })

/-- The invariant of a replay in which no call wakes a waiting thread. -/
structure Watchful (threads : List ThreadFiles) (s : SinucaTraceReader) : Prop where
  guarded : Guarded threads s
  endsRead : s.EndsRead
  rounds : ∃ round,
    Round threads.length round (fun u => barriers (s.consumed threads u)) s.toReplayControl ∧
    Alert threads.length round (fun u => barriers (s.consumed threads u)) s.toReplayControl
  opener : ∀ t < threads.length, 0 < openSections (s.consumed threads t) →
    s.isThreadAwake t = true

theorem step_preserves_watchful {threads : List ThreadFiles} {s : SinucaTraceReader}
    (before : Watchful threads s) (call : FetchCall)
    (keeps : KeepsWaiters threads.length s call) : Watchful threads (replayStep s call).1 := by
  have guarded := step_preserves_guarded before.guarded call keeps.1
  have endsRead := SinucaTraceReader.step_preserves_endsRead before.endsRead call
    before.guarded.inFiles.consistent
  have cases := (s.fetch_records call.ret call.tid before.guarded.inFiles.consistent).1
  change SinucaTraceReader.RecordsCase s call.tid _ (replayStep s call).1 at cases
  obtain ⟨round, rounds, alert⟩ := before.rounds
  generalize (replayStep s call).1 = s' at cases guarded endsRead ⊢
  cases cases with
  | kept control pending _ =>
    have consumed : ∀ u, s'.consumed threads u = s.consumed threads u :=
      fun u => SinucaTraceReader.consumed_congr (pending u)
    refine ⟨guarded, endsRead, ⟨round, ?_, ?_⟩, ?_⟩
    · simpa only [consumed, control] using rounds
    · simpa only [consumed, control] using alert
    · simpa only [consumed, control] using before.opener
  | searched searches awake search replayed others _ =>
    obtain ⟨running, zero⟩ := before.guarded.exclusive.running keeps.1 awake
    obtain ⟨seen, round', split, rounds', alert', place⟩ := replayEvents_alert rounds alert running
      keeps.1 awake _ (before.guarded.nested call.tid keeps.1) (keeps.2 searches) _ _ _ replayed
    have mine := before.guarded.inFiles.consumed_append split
    have consumed : ∀ u, u ≠ call.tid → s'.consumed threads u = s.consumed threads u :=
      fun u other => SinucaTraceReader.consumed_congr (others u other)
    rw [← barriers_consumed mine consumed] at rounds' alert'
    refine ⟨guarded, endsRead, ⟨round', rounds', alert'⟩, ?_⟩
    intro t inRange inside
    by_cases here : t = call.tid
    · subst here
      apply place.resolve_right
      intro closed
      rw [mine, openSections, List.foldl_append] at inside
      change 0 < seen.foldl depthAfter (openSections (s.consumed threads call.tid)) at inside
      omega
    · rw [consumed t here, zero t inRange here] at inside
      exact absurd inside (Nat.lt_irrefl 0)

theorem watchful_openTrace (d : StaticDictionary) (threads : List ThreadFiles)
    (garbage : Nat → BitVec 64) (nested : ∀ f ∈ threads, wellNested 0 f.dynamic = true)
    (present : 0 < threads.length) : Watchful threads (.openTrace d threads garbage) := by
  obtain ⟨_, round, rounds⟩ := inRounds_openTrace d threads garbage
  refine ⟨guarded_openTrace d threads garbage nested,
    SinucaTraceReader.endsRead_openTrace d threads garbage, ⟨round, rounds, ?_, ?_⟩, ?_⟩
  · simpa [SinucaTraceReader.openTrace] using present
  · intro _ u _ asleep
    cases asleep
  · intro t _ _
    rfl

/-- Not all threads have come to the barrier of the round. -/
theorem Round.behind {n round : Nat} {passed : Nat → Nat} {c : ReplayControl}
    (rounds : Round n round passed c) (fewer : c.barrierCont < n) :
    ∃ u < n, passed u = round := by
  by_contra none
  have all : ((Finset.range n).filter fun u => passed u = round + 1) = Finset.range n := by
    apply Finset.filter_true_of_mem
    intro u member
    have inRange : u < n := by simpa using member
    rcases rounds.place u inRange with here | ⟨waits, _⟩
    · exact absurd ⟨u, inRange, here⟩ none
    · exact waits
  have count := rounds.count
  rw [all, Finset.card_range] at count
  omega

/-- What has been read of a file, when its end has been seen. -/
theorem Watchful.read {threads : List ThreadFiles} {s : SinucaTraceReader}
    (before : Watchful threads s) {t : Nat}
    (ended : (s.threadDataVec t).dynFile.hasReachedEnd = true) :
    s.consumed threads t = (threads.getD t default).dynamic := by
  unfold SinucaTraceReader.consumed
  rw [before.endsRead t ended]
  simp

theorem Watchful.notStuck {threads : List ThreadFiles} {s : SinucaTraceReader}
    (before : Watchful threads s) (present : 0 < threads.length)
    (closed : ∀ f ∈ threads, openSections f.dynamic = 0)
    (equal : ∀ f ∈ threads, ∀ g ∈ threads, barriers f.dynamic = barriers g.dynamic) :
    NotStuck threads.length s := by
  intro going
  have file : ∀ t < threads.length, threads.getD t default ∈ threads := by
    intro t inRange
    rw [List.getD_eq_getElem?_getD, List.getElem?_eq_getElem inRange]
    exact List.getElem_mem inRange
  by_cases inside : ∃ t < threads.length, 0 < openSections (s.consumed threads t)
  · -- The thread in a section is awake, and its section ends in its file.
    obtain ⟨t, inRange, inside⟩ := inside
    refine ⟨t, inRange, ?_, before.opener t inRange inside⟩
    by_contra ended
    rw [Bool.not_eq_false] at ended
    rw [before.read ended, closed _ (file t inRange)] at inside
    exact absurd inside (Nat.lt_irrefl 0)
  · have outside : s.criticalCont = 0 := by
      apply before.guarded.exclusive.idle
      intro t inRange
      by_contra some
      exact inside ⟨t, inRange, Nat.pos_of_ne_zero some⟩
    obtain ⟨round, rounds, alert⟩ := before.rounds
    by_contra stuck
    -- A thread with instructions left waits at the barrier of the round.
    have waits : ∀ t < threads.length, (s.threadDataVec t).dynFile.hasReachedEnd = false →
        barriers (s.consumed threads t) = round + 1 := by
      intro t inRange left
      apply alert.sleepers outside t inRange
      by_contra awake
      exact stuck ⟨t, inRange, left, by simpa using awake⟩
    have some := waits 0 present going
    obtain ⟨late, inRange, here⟩ := rounds.behind alert.fewer
    have ended : (s.threadDataVec late).dynFile.hasReachedEnd = true := by
      by_contra left
      have there := waits late inRange (by simpa using left)
      omega
    have most : barriers (s.consumed threads 0) ≤ barriers (threads.getD 0 default).dynamic := by
      unfold SinucaTraceReader.consumed
      exact (List.take_sublist _ _).countP_le
    rw [before.read ended, equal _ (file late inRange) _ (file 0 present)] at here
    omega

/-- For every set of traces with equally many barriers and critical sections that are
well nested, closed, and contain no barrier: a replay whose calls wake no thread that
waits at a barrier is never stuck. -/
theorem replay_not_stuck (d : StaticDictionary) (threads : List ThreadFiles)
    (garbage : Nat → BitVec 64) (present : 0 < threads.length)
    (nested : ∀ f ∈ threads, wellNested 0 f.dynamic = true)
    (closed : ∀ f ∈ threads, openSections f.dynamic = 0)
    (equal : ∀ f ∈ threads, ∀ g ∈ threads, barriers f.dynamic = barriers g.dynamic)
    (calls : List FetchCall)
    (keeps : Machine.Meets replayStep (KeepsWaiters threads.length)
      (.openTrace d threads garbage) calls) :
    NotStuck threads.length (replay d threads garbage calls).1 := by
  have watchful : Watchful threads (replay d threads garbage calls).1 := by
    apply Machine.run_induction_of_meets replayStep _ (P := fun s _ _ => Watchful threads s)
    · exact watchful_openTrace d threads garbage nested present
    · intro s _ _ call before here
      exact step_preserves_watchful before call here
    · exact keeps
  exact watchful.notStuck present closed equal

/-- Thread 1 comes to its first barrier; thread 0 first passes through a critical
section. -/
def sectionAndBarriers : List ThreadFiles :=
  [{ dynamic := [.threadEvent 1, .threadEvent 2, .basicBlock 0, .threadEvent 0, .basicBlock 0,
      .threadEvent 0, .basicBlock 0], memory := [] },
    { dynamic := [.threadEvent 0, .basicBlock 0, .threadEvent 0, .basicBlock 0], memory := [] }]

theorem replay_not_stuck_section_first :
    NotStuck 2 (replay oneInstruction sectionAndBarriers (fun _ => 0) [⟨{}, 0⟩, ⟨{}, 1⟩]).1 :=
  replay_not_stuck oneInstruction sectionAndBarriers (fun _ => 0) (by decide) (by decide)
    (by decide) (by decide) [⟨{}, 0⟩, ⟨{}, 1⟩]
    ⟨⟨by decide, fun _ => by decide +kernel⟩, ⟨by decide, fun _ => by decide +kernel⟩, trivial⟩

/-- Closing its section, thread 0 wakes thread 1, whose second barrier then counts as
the arrival of both. Thread 1 runs to its end, and thread 0 waits for it forever. -/
theorem replay_stuck :
    (∀ f ∈ sectionAndBarriers, wellNested 0 f.dynamic = true) ∧
    (∀ f ∈ sectionAndBarriers, openSections f.dynamic = 0) ∧
    (∀ f ∈ sectionAndBarriers, ∀ g ∈ sectionAndBarriers,
      barriers f.dynamic = barriers g.dynamic) ∧
    ¬ NotStuck 2 (replay oneInstruction sectionAndBarriers (fun _ => 0)
      [⟨{}, 1⟩, ⟨{}, 0⟩, ⟨{}, 1⟩, ⟨{}, 1⟩, ⟨{}, 1⟩, ⟨{}, 0⟩]).1 :=
  ⟨by decide, by decide, by decide, by decide +kernel⟩

end Sinuca3.Guarantees
