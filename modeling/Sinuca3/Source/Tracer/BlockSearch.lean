import Sinuca3.Source.Tracer.Replay

/-!
# The search for a basic block

One search may consume several records. `searchedRecords` says which of them it goes
through, whatever it makes of them, and `replayEvents_cons` what it does with the first.
-/
namespace Sinuca3.Source

/-- The pending records a search goes through, with `waiting` threads at a barrier. -/
def searchedRecords (totalThreads : Nat) : Int → List DynamicTraceRecord → List DynamicTraceRecord
  | _, [] => []
  | waiting, r :: rest =>
    match r.event with
    | some .criticalStart => r :: searchedRecords totalThreads waiting rest
    | some .criticalEnd => r :: searchedRecords totalThreads waiting rest
    | some .barrierSync =>
      if waiting + 1 = totalThreads then r :: searchedRecords totalThreads 0 rest else [r]
    | _ => [r]

/-- What the end of a section does, but for whom it wakes. -/
theorem handleEvent_criticalEnd (c : ReplayControl) (tid : Nat) :
    ∃ c', c.handleEvent tid .criticalEnd = (c', false) ∧ c'.totalThreads = c.totalThreads ∧
      c'.barrierCont = c.barrierCont ∧ c'.criticalCont = c.criticalCont - 1 ∧
      c'.fetchFailed = (c.fetchFailed || decide (c.criticalCont ≤ 0)) := by
  simp only [ReplayControl.handleEvent]
  split
  · have positive : ¬ c.criticalCont ≤ 0 := by omega
    exact ⟨_, rfl, rfl, rfl, rfl, by simp [positive]⟩
  · split
    · have none : c.criticalCont ≤ 0 := by omega
      exact ⟨_, rfl, rfl, rfl, rfl, by simp [none]⟩
    · have positive : ¬ c.criticalCont ≤ 0 := by omega
      exact ⟨_, rfl, rfl, rfl, rfl, by simp [positive]⟩

/-- Everything a search can do with its first record. -/
inductive SearchStep (tid : Nat) (r : DynamicTraceRecord) (records : List DynamicTraceRecord)
    (c : ReplayControl) : BlockSearch × List DynamicTraceRecord × ReplayControl → Prop where
  | block (kind : r.getRecordType = .basicBlockIdentifier)
      (here : searchedRecords c.totalThreads c.barrierCont (r :: records) = [r]) :
      SearchStep tid r records c (.found r.getBasicBlockIdentifier, records, c)
  | unknown (code : BitVec 8) (kind : r.getRecordType = .unknown code)
      (here : searchedRecords c.totalThreads c.barrierCont (r :: records) = [r]) :
      SearchStep tid r records c (.stopped, records, { c with fetchFailed := true })
  | stops (kind : r.getRecordType = .threadEvent) (e : ThreadEventType)
      (code : r.getThreadEvent = e) (c' : ReplayControl)
      (handled : c.handleEvent tid e = (c', true))
      (here : searchedRecords c.totalThreads c.barrierCont (r :: records) = [r]) :
      SearchStep tid r records c (.stopped, records, c')
  | goesOn (kind : r.getRecordType = .threadEvent) (e : ThreadEventType)
      (code : r.getThreadEvent = e) (c' : ReplayControl)
      (handled : c.handleEvent tid e = (c', false))
      (here : searchedRecords c.totalThreads c.barrierCont (r :: records) =
        r :: searchedRecords c'.totalThreads c'.barrierCont records) :
      SearchStep tid r records c (replayEvents tid records c')

theorem replayEvents_cons (tid : Nat) (r : DynamicTraceRecord) (records : List DynamicTraceRecord)
    (c : ReplayControl) : SearchStep tid r records c (replayEvents tid (r :: records) c) := by
  cases kind : r.getRecordType with
  | basicBlockIdentifier =>
    rw [replayEvents]
    simp only [kind]
    exact .block kind (by simp [searchedRecords, DynamicTraceRecord.event_of_block kind])
  | unknown code =>
    rw [replayEvents]
    simp only [kind]
    exact .unknown code kind (by
      simp [searchedRecords, DynamicTraceRecord.event_of_unknown kind])
  | threadEvent =>
    have event := DynamicTraceRecord.event_of_threadEvent kind rfl
    rw [replayEvents]
    cases e : r.getThreadEvent with
    | abruptEnd =>
      simp only [kind, ReplayControl.handleEvent]
      exact .stops kind _ e _ rfl (by simp [searchedRecords, event, e])
    | unknown code =>
      simp only [kind, ReplayControl.handleEvent]
      exact .stops kind _ e _ rfl (by simp [searchedRecords, event, e])
    | criticalStart =>
      simp only [kind, ReplayControl.handleEvent]
      exact .goesOn kind _ e _ rfl (by simp [searchedRecords, event, e])
    | criticalEnd =>
      obtain ⟨c', handled, total, waiting, _⟩ := handleEvent_criticalEnd c tid
      simp only [kind, handled]
      exact .goesOn kind _ e _ handled (by simp [searchedRecords, event, e, total, waiting])
    | barrierSync =>
      by_cases last : c.barrierCont + 1 = c.totalThreads
      · simp only [kind, ReplayControl.handleEvent, if_pos last]
        refine .goesOn kind _ e _ (by simp only [ReplayControl.handleEvent, if_pos last]) ?_
        simp [searchedRecords, event, e, last]
      · simp only [kind, ReplayControl.handleEvent, if_neg last]
        refine .stops kind _ e _ (by simp only [ReplayControl.handleEvent, if_neg last]) ?_
        simp [searchedRecords, event, e, last]

end Sinuca3.Source
