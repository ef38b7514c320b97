import Sinuca3.Guarantees.FaithfulReplay

/-!
# The end of a replay

`HasExecutionEnded` looks at thread 0 only; that another thread has not come to the end
of its file is an error it prints and passes over. A replay in which thread 0 comes to
its end last drops nothing.
-/
namespace Sinuca3.Guarantees
open Sinuca3.Source Lib

/-- Whether a search by `tid` runs into the end of its file. -/
def runsOut (tid : Nat) : List DynamicTraceRecord → ReplayControl → Bool
  | [], _ => true
  | r :: rest, c =>
    match r.event with
    | none => false
    | some e =>
      match c.handleEvent tid e with
      | (_, true) => false
      | (c, false) => runsOut tid rest c

theorem runsOut_of_ended (tid : Nat) (records : List DynamicTraceRecord) (c : ReplayControl)
    (ended : (replayEvents tid records c).1 = .ended) : runsOut tid records c = true := by
  induction records generalizing c with
  | nil => rfl
  | cons r tail ih =>
    have step := replayEvents_cons tid r tail c
    generalize replayEvents tid (r :: tail) c = result at step ended
    cases step with
    | block => cases ended
    | unknown => cases ended
    | stops => cases ended
    | goesOn kind e code c' handled =>
      have event := DynamicTraceRecord.event_of_threadEvent kind code
      simp [runsOut, event, handled, ih c' ended]

/-- The calls after which nothing is dropped: on an existing thread, and not one in
which thread 0 runs into the end of its file before the others have. -/
def EndsLast (n : Nat) (s : SinucaTraceReader) (call : FetchCall) : Prop :=
  call.tid < n ∧ (call.tid = 0 → s.searchesBlock 0 = true →
    runsOut 0 (s.pending 0) s.toReplayControl = true →
    ∀ u < n, u ≠ 0 → (s.threadDataVec u).dynFile.hasReachedEnd = true)

instance (n : Nat) (s : SinucaTraceReader) (call : FetchCall) : Decidable (EndsLast n s call) :=
  inferInstanceAs (Decidable (_ ∧ _))

/-- If a call returns `end_`, every file was read to its end and every instruction was
returned. -/
def DropsNothing {d : StaticDictionary} (threads : List (ThreadTrace d)) (s : SinucaTraceReader)
    (log : List FetchReturn) (call : FetchCall) : Prop :=
  (s.fetch call.ret call.tid).1 = .end_ → ∀ tid (present : tid < threads.length),
    (s.threadDataVec tid).dynFile.hasReachedEnd = true ∧
      (received tid log).map (·.staticInfo) = expansion d threads[tid].records

section Replay

variable {d : StaticDictionary}

/-- Once thread 0 has seen its end, every thread has. -/
def ZeroLast (n : Nat) (s : SinucaTraceReader) : Prop :=
  (s.threadDataVec 0).dynFile.reachedEnd = true →
    ∀ u < n, (s.threadDataVec u).dynFile.reachedEnd = true

theorem step_preserves_zeroLast {n : Nat} {s : SinucaTraceReader} (before : ZeroLast n s)
    (consistent : ∀ u, (s.threadDataVec u).dynFile.Consistent) (call : FetchCall)
    (last : EndsLast n s call) : ZeroLast n (replayStep s call).1 := by
  intro ended u inRange
  rcases (s.step_reachedEnd call consistent 0).2 ended with old | ⟨zero, searches, runs⟩
  · exact (s.step_reachedEnd call consistent u).1 (before old u inRange)
  · rw [← zero] at searches runs
    by_cases here : u = 0
    · rw [here]
      exact ended
    · exact (s.step_reachedEnd call consistent u).1
        (last.2 zero.symm searches (runsOut_of_ended _ _ _ runs) u inRange here)

/-- In every replay of traces without an abrupt end in which thread 0 comes to its end
last, a call returns `end_` only when nothing is left of any thread. -/
theorem end_drops_nothing (threads : List (ThreadTrace d)) (garbage : Nat → BitVec 64)
    (orderly : ∀ t ∈ threads, ∀ r ∈ t.records, ¬ IsAbruptEnd r)
    (calls : List FetchCall) (call : FetchCall)
    (last : Machine.Meets replayStep (EndsLast threads.length)
      (.openTrace d (threads.map ThreadTrace.files) garbage) calls) :
    DropsNothing threads (replayTraces threads garbage calls).1
      (replayTraces threads garbage calls).2 call := by
  obtain ⟨replaying, zeroLast, inFiles⟩ :
      Replaying threads (replayTraces threads garbage calls).1
        (replayTraces threads garbage calls).2 ∧
      ZeroLast threads.length (replayTraces threads garbage calls).1 ∧
      (replayTraces threads garbage calls).1.InFiles (threads.map ThreadTrace.files) := by
    apply Machine.run_induction_of_meets replayStep _
      (P := fun s _ log => Replaying threads s log ∧ ZeroLast threads.length s ∧
        s.InFiles (threads.map ThreadTrace.files))
    · refine ⟨replaying_openTrace threads garbage, ?_,
        SinucaTraceReader.inFiles_openTrace d _ garbage⟩
      intro ended
      cases ended
    · rintro s _ log call ⟨replaying, zeroLast, inFiles⟩ here
      exact ⟨step_preserves_replaying threads s log replaying call here.1,
        step_preserves_zeroLast zeroLast inFiles.consistent call here,
        SinucaTraceReader.step_preserves_inFiles inFiles call⟩
    · exact last
  intro ended tid present
  have zero : 0 < threads.length := Nat.lt_of_le_of_lt (Nat.zero_le tid) present
  have finished := SinucaTraceReader.hasExecutionEnded_of_end _ call.ret call.tid
    (inFiles.consistent call.tid) ended
  have finished : ((replayTraces threads garbage calls).1.threadDataVec 0).dynFile.reachedEnd =
      true := by
    unfold SinucaTraceReader.hasExecutionEnded at finished
    split at finished
    · rename_i marked
      obtain ⟨t, member, r, found, abrupt⟩ := replaying.abruptEnd marked
      exact absurd abrupt (orderly t member r found)
    · exact finished
  have seen := zeroLast finished tid present
  exact ⟨seen, (replaying.follows tid present).complete seen⟩

end Replay

/-- The one instruction, executed once. -/
def oneInstructionTrace : ThreadTrace oneInstruction where
  records := [.basicBlock 0]
  groups := []
  inRange := by
    intro r member
    cases List.mem_singleton.mp member
    exact .inl ⟨rfl, by decide⟩
  onePerAccess := rfl

theorem oneInstructionTrace_orderly :
    ∀ t ∈ [oneInstructionTrace, oneInstructionTrace], ∀ r ∈ t.records, ¬ IsAbruptEnd r := by
  intro t member r found abrupt
  simp only [List.mem_cons, List.not_mem_nil, or_false, or_self] at member
  subst member
  cases List.mem_singleton.mp found
  cases abrupt.1

theorem end_drops_nothing_other_first :
    DropsNothing [oneInstructionTrace, oneInstructionTrace]
      (replayTraces [oneInstructionTrace, oneInstructionTrace] (fun _ => 0)
        [⟨{}, 1⟩, ⟨{}, 1⟩, ⟨{}, 0⟩, ⟨{}, 0⟩]).1
      (replayTraces [oneInstructionTrace, oneInstructionTrace] (fun _ => 0)
        [⟨{}, 1⟩, ⟨{}, 1⟩, ⟨{}, 0⟩, ⟨{}, 0⟩]).2 ⟨{}, 0⟩ :=
  end_drops_nothing [oneInstructionTrace, oneInstructionTrace] (fun _ => 0)
    oneInstructionTrace_orderly _ _
    ⟨by decide +kernel, by decide +kernel, by decide +kernel, by decide +kernel, trivial⟩

/-- Thread 0 comes to its end while thread 1 has not begun: the execution has ended. -/
theorem end_drops_instructions :
    (∀ t ∈ [oneInstructionTrace, oneInstructionTrace], ∀ r ∈ t.records, ¬ IsAbruptEnd r) ∧
    ¬ DropsNothing [oneInstructionTrace, oneInstructionTrace]
      (replayTraces [oneInstructionTrace, oneInstructionTrace] (fun _ => 0)
        [⟨{}, 0⟩, ⟨{}, 0⟩]).1
      (replayTraces [oneInstructionTrace, oneInstructionTrace] (fun _ => 0)
        [⟨{}, 0⟩, ⟨{}, 0⟩]).2 ⟨{}, 1⟩ := by
  refine ⟨oneInstructionTrace_orderly, ?_⟩
  intro nothing
  have read := (nothing (by decide +kernel) 1 (by decide)).1
  revert read
  decide +kernel

end Sinuca3.Guarantees
