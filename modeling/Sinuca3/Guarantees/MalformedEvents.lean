import Sinuca3.Source.Tracer.BlockSearch
import Sinuca3.Guarantees.CriticalSections
import Sinuca3.Guarantees.FaithfulReplay

/-!
# Malformed thread events

What a call of `Fetch` reports about the records it consumes, against `sound`, which says
what records a trace may hold.

The reader marks an invalid record in `fetchFailed`, which only a search without a
block looks at, and an unknown event does not set it. So a call reports what it
consumes unless its search ends in a block behind an invalid end of a section, or in
an unknown event that is the first fault of the trace.
-/
namespace Sinuca3.Guarantees
open Sinuca3.Source Lib

/-- Whether a record is at fault where `sections` critical sections are open. -/
def invalid (sections : Nat) (r : DynamicTraceRecord) : Bool :=
  match r.getRecordType with
  | .basicBlockIdentifier => false
  | .unknown _ => true
  | .threadEvent =>
    match r.getThreadEvent with
    | .unknown _ => true
    | .criticalEnd => decide (sections = 0)
    | _ => false

/-- No record is at fault in its place. -/
def sound : Nat → List DynamicTraceRecord → Bool
  | _, [] => true
  | sections, r :: rest => !invalid sections r && sound (depthAfter sections r) rest

/-- The records all calls so far have consumed, of whatever thread. -/
structure ReplayAudit where
  reader : SinucaTraceReader
  history : List DynamicTraceRecord

structure ReportedCall where
  history : List DynamicTraceRecord
  consumed : List DynamicTraceRecord
  result : FetchResult
  /-- The call is at an instruction whose memory operations the memory file lacks. -/
  memoryFault : Bool

/-- What a thread has pending in `s` and no longer in `s'`. -/
def consumedBetween (s s' : SinucaTraceReader) (tid : Nat) : List DynamicTraceRecord :=
  (s.pending tid).take ((s.pending tid).length - (s'.pending tid).length)

def memoryFault (s : SinucaTraceReader) (call : FetchCall) : Bool :=
  let returned := s.fetch call.ret call.tid
  (returned.2.2.threadDataVec call.tid).isInsideBasicBlock &&
    accessesMemory returned.2.1.staticInfo &&
    ((s.threadDataVec call.tid).memFile.readMemoryOperations call.ret).1

/-- A call of `Fetch`, with the records it consumes. -/
def auditStep (a : ReplayAudit) (call : FetchCall) : ReplayAudit × List ReportedCall :=
  let returned := a.reader.fetch call.ret call.tid
  let consumed := consumedBetween a.reader returned.2.2 call.tid
  (⟨returned.2.2, a.history ++ consumed⟩,
    [⟨a.history, consumed, returned.1, memoryFault a.reader call⟩])

/-- A call that consumes an invalid record fails, and one on sound records does not,
unless for want of memory operations. -/
def Reported (e : ReportedCall) : Prop :=
  (sound (openSections e.history) e.consumed = false → e.result = .error) ∧
    (sound 0 (e.history ++ e.consumed) = true → e.result = .error → e.memoryFault = true)

instance (e : ReportedCall) : Decidable (Reported e) := inferInstanceAs (Decidable (_ ∧ _))

def AllReported (log : List ReportedCall) : Prop := ∀ e ∈ log, Reported e

instance (log : List ReportedCall) : Decidable (AllReported log) :=
  inferInstanceAs (Decidable (∀ e ∈ log, Reported e))

/-- The calls whose search, if it comes to a block, passes over no invalid record, and
if to an unknown event, does so after an earlier fault. -/
def CatchesInvalid (a : ReplayAudit) (call : FetchCall) : Prop :=
  a.reader.searchesBlock call.tid = true →
    ∀ passed r, searchedRecords a.reader.totalThreads a.reader.barrierCont
        (a.reader.pending call.tid) = passed ++ [r] →
      (r.getRecordType = .basicBlockIdentifier →
        sound (openSections a.history) passed = true) ∧
      (∀ code, r.event = some (.unknown code) → sound 0 (a.history ++ passed) = false)

theorem sound_append (sections : Nat) (records more : List DynamicTraceRecord) :
    sound sections (records ++ more) =
      (sound sections records && sound (records.foldl depthAfter sections) more) := by
  induction records generalizing sections with
  | nil => rfl
  | cons r rest ih => simp [sound, ih, Bool.and_assoc]

theorem sound_concat (history : List DynamicTraceRecord) (r : DynamicTraceRecord) :
    sound 0 (history ++ [r]) = (sound 0 history && !invalid (openSections history) r) := by
  rw [sound_append, openSections]
  simp [sound]

theorem openSections_concat (history : List DynamicTraceRecord) (r : DynamicTraceRecord) :
    openSections (history ++ [r]) = depthAfter (openSections history) r := by
  simp [openSections]

/-- The control after the records of `history`: the flag is up exactly when one was
invalid, and before that the counter counts the open sections. -/
structure Flags (history : List DynamicTraceRecord) (c : ReplayControl) : Prop where
  failed : c.fetchFailed = !sound 0 history
  count : sound 0 history = true → c.criticalCont = openSections history

namespace Flags

variable {history : List DynamicTraceRecord} {c c' : ReplayControl} {r : DynamicTraceRecord}

/-- A record that is in order, and leaves flag and counter as they are. -/
theorem silent (before : Flags history c) (valid : invalid (openSections history) r = false)
    (depth : depthAfter (openSections history) r = openSections history)
    (failed : c'.fetchFailed = c.fetchFailed) (count : c'.criticalCont = c.criticalCont) :
    Flags (history ++ [r]) c' := by
  have same : sound 0 (history ++ [r]) = sound 0 history := by simp [sound_concat, valid]
  refine ⟨?_, fun well => ?_⟩
  · rw [failed, before.failed, same]
  · rw [count, openSections_concat, depth]
    exact before.count (same ▸ well)

/-- After the first fault only the flag matters, which stays. -/
theorem faulty (fault : sound 0 (history ++ [r]) = false) (failed : c'.fetchFailed = true) :
    Flags (history ++ [r]) c' := by
  refine ⟨?_, fun well => ?_⟩
  · rw [fault, failed]
    rfl
  · rw [fault] at well
    cases well

/-- One of the four events, each of which does to the flag and the counter what it
does to the count of sections. -/
theorem event (before : Flags history c) (tid : Nat) (e : ThreadEventType)
    (event : r.event = some e) (known : ∀ code, e ≠ .unknown code) :
    Flags (history ++ [r]) (c.handleEvent tid e).1 := by
  have kind : r.getRecordType = .threadEvent := by
    unfold DynamicTraceRecord.event at event
    split at event
    · assumption
    · cases event
  have code : r.getThreadEvent = e := by
    simpa [DynamicTraceRecord.event, kind] using event
  cases e with
  | unknown other => exact absurd rfl (known other)
  | abruptEnd =>
    exact before.silent (by simp [invalid, kind, code]) (by simp [depthAfter, event]) rfl rfl
  | barrierSync =>
    have valid : invalid (openSections history) r = false := by simp [invalid, kind, code]
    have depth : depthAfter (openSections history) r = openSections history := by
      simp [depthAfter, event]
    simp only [ReplayControl.handleEvent]
    split
    · exact before.silent valid depth rfl rfl
    · exact before.silent valid depth rfl rfl
  | criticalStart =>
    have same : sound 0 (history ++ [r]) = sound 0 history := by
      simp [sound_concat, invalid, kind, code]
    refine ⟨?_, fun well => ?_⟩
    · rw [same]
      exact before.failed
    · rw [openSections_concat, depthAfter, event]
      have count := before.count (same ▸ well)
      simp only [ReplayControl.handleEvent, count]
      push_cast
      rfl
  | criticalEnd =>
    obtain ⟨c', handled, _, _, count', failed'⟩ := handleEvent_criticalEnd c tid
    rw [handled]
    have failed := before.failed
    cases well : sound 0 history with
    | false =>
      rw [well] at failed
      apply faulty
      · simp [sound_concat, well]
      · simp [failed', failed]
    | true =>
      have count := before.count well
      rw [well] at failed
      by_cases none : openSections history = 0
      · -- The counter drops below zero, which is where the flag is set.
        apply faulty
        · simp [sound_concat, invalid, kind, code, none]
        · simp [failed', count, none]
      · have valid : sound 0 (history ++ [r]) = true := by
          simp [sound_concat, invalid, kind, code, none, well]
        refine ⟨?_, fun _ => ?_⟩
        · simp [failed', failed, count, none, valid]
        · rw [openSections_concat, depthAfter, event, count', count]
          dsimp only
          omega

end Flags

/-- What a search leaves of the records and the control; the last record it goes
through tells whether it found a block. -/
structure Searched (history records rest : List DynamicTraceRecord) (search : BlockSearch)
    (c c' : ReplayControl) : Prop where
  split : records = searchedRecords c.totalThreads c.barrierCont records ++ rest
  flags : Flags (history ++ searchedRecords c.totalThreads c.barrierCont records) c'
  block : search.missing = false → ∃ passed r,
    searchedRecords c.totalThreads c.barrierCont records = passed ++ [r] ∧
      r.getRecordType = .basicBlockIdentifier

theorem Searched.cons {history records rest : List DynamicTraceRecord} {search : BlockSearch}
    {c c' c'' : ReplayControl} {r : DynamicTraceRecord}
    (later : Searched (history ++ [r]) records rest search c' c'')
    (here : searchedRecords c.totalThreads c.barrierCont (r :: records) =
      r :: searchedRecords c'.totalThreads c'.barrierCont records) :
    Searched history (r :: records) rest search c c'' := by
  refine ⟨?_, ?_, fun found => ?_⟩
  · rw [here, List.cons_append, ← later.split]
  · rw [here]
    simpa using later.flags
  · obtain ⟨passed, last, whole, kind⟩ := later.block found
    exact ⟨r :: passed, last, by rw [here, whole, List.cons_append], kind⟩

theorem Searched.single {history rest : List DynamicTraceRecord} {search : BlockSearch}
    {c c' : ReplayControl} {r : DynamicTraceRecord}
    (here : searchedRecords c.totalThreads c.barrierCont (r :: rest) = [r])
    (flags : Flags (history ++ [r]) c')
    (block : search.missing = false → r.getRecordType = .basicBlockIdentifier) :
    Searched history (r :: rest) rest search c c' := by
  refine ⟨?_, ?_, fun found => ⟨[], r, ?_, block found⟩⟩
  · rw [here]
    rfl
  · rw [here]
    exact flags
  · rw [here]
    rfl

/-- A whole search, where an unknown event comes only after a fault. -/
theorem replayEvents_searched (tid : Nat) (records history : List DynamicTraceRecord)
    (c : ReplayControl) (before : Flags history c)
    (caught : ∀ passed r, searchedRecords c.totalThreads c.barrierCont records = passed ++ [r] →
      ∀ code, r.event = some (.unknown code) → sound 0 (history ++ passed) = false) :
    Searched history records (replayEvents tid records c).2.1 (replayEvents tid records c).1 c
      (replayEvents tid records c).2.2 := by
  induction records generalizing c history with
  | nil => exact ⟨rfl, by simpa [searchedRecords, replayEvents] using before,
      fun found => by cases found⟩
  | cons r records ih =>
    have step := replayEvents_cons tid r records c
    generalize replayEvents tid (r :: records) c = result at step ⊢
    cases step with
    | block kind here =>
      refine Searched.single here ?_ fun _ => kind
      exact before.silent (by simp [invalid, kind])
        (depthAfter_of_silent _ (DynamicTraceRecord.event_of_block kind)) rfl rfl
    | unknown code kind here =>
      refine Searched.single here ?_ fun found => by cases found
      exact Flags.faulty (by simp [sound_concat, invalid, kind]) rfl
    | stops kind e code c' handled here =>
      have event := DynamicTraceRecord.event_of_threadEvent kind code
      refine Searched.single here ?_ fun found => by cases found
      by_cases known : ∀ code, e ≠ .unknown code
      · have flags := before.event tid e event known
        rwa [handled] at flags
      · obtain ⟨other, rfl⟩ := not_forall_not.mp known
        have fault : sound 0 history = false := by
          simpa using caught [] r here other event
        cases handled
        refine Flags.faulty (by simp [sound_concat, fault]) ?_
        rw [before.failed, fault]
        rfl
    | goesOn kind e code c' handled here =>
      have event := DynamicTraceRecord.event_of_threadEvent kind code
      have known : ∀ code, e ≠ .unknown code := by
        rintro code rfl
        cases handled
      have flags := before.event tid e event known
      rw [handled] at flags
      refine Searched.cons (ih (history ++ [r]) c' flags ?_) here
      intro passed last whole code unknown
      have fault := caught (r :: passed) last (by rw [here, whole, List.cons_append]) code unknown
      simpa using fault

/-- An instruction whose memory operations are not to be had is the only thing that
fails inside a block. -/
theorem fetchInstruction_fault (s : SinucaTraceReader) (ret ret' : InstructionPacket) (tid : Nat)
    (inside : (s.threadDataVec tid).isInsideBasicBlock = true)
    (failed : (s.fetchInstruction ret tid).1 = .error) :
    ((s.fetchInstruction ret tid).2.2.threadDataVec tid).isInsideBasicBlock = true ∧
      accessesMemory (s.fetchInstruction ret tid).2.1.staticInfo = true ∧
      ((s.threadDataVec tid).memFile.readMemoryOperations ret').1 = true := by
  have packet : ∀ inst, (s.fetchMemoryData inst tid).1 = true →
      ((s.fetchMemoryData inst tid).2.2.threadDataVec tid).isInsideBasicBlock = true ∧
        (s.fetchMemoryData inst tid).2.1.staticInfo = inst.staticInfo ∧
        ((s.threadDataVec tid).memFile.readMemoryOperations ret').1 = true := by
    intro inst missing
    obtain ⟨same, kept⟩ :=
      (s.threadDataVec tid).memFile.readMemoryOperations_packet inst ret'
    unfold SinucaTraceReader.fetchMemoryData at missing ⊢
    dsimp only at missing ⊢
    split
    · rename_i ended
      refine ⟨inside, rfl, ?_⟩
      rw [MemoryTraceReader.hasReachedEnd] at ended
      unfold MemoryTraceReader.readMemoryOperations
      rw [if_pos ended]
    · rename_i going
      rw [if_neg going] at missing
      exact ⟨by simpa using inside, kept, same ▸ missing⟩
  unfold SinucaTraceReader.fetchInstruction at failed ⊢
  dsimp only at failed ⊢
  split
  · rename_i accesses
    rw [if_pos accesses] at failed
    split
    · rename_i out missing
      have fault := packet _ (congrArg Prod.fst missing)
      rw [missing] at fault
      exact ⟨fault.1, (congrArg accessesMemory fault.2.1).trans accesses, fault.2.2⟩
    · rename_i out read
      rw [read] at failed
      cases failed
  · rename_i plain
    rw [if_neg plain] at failed
    cases failed

/-- The invariant of an audit in which every call catches what is invalid. -/
structure Audited (a : ReplayAudit) : Prop where
  consistent : ∀ u, (a.reader.threadDataVec u).dynFile.Consistent
  flags : Flags a.history a.reader.toReplayControl

theorem consumedBetween_same {s s' : SinucaTraceReader} {tid : Nat}
    (same : s'.pending tid = s.pending tid) : consumedBetween s s' tid = [] := by
  simp [consumedBetween, same]

theorem consumedBetween_append {s s' : SinucaTraceReader} {tid : Nat}
    (seen : List DynamicTraceRecord) (split : s.pending tid = seen ++ s'.pending tid) :
    consumedBetween s s' tid = seen := by
  simp [consumedBetween, split]

/-- A call that consumes nothing has nothing to report. -/
theorem reported_nothing {history : List DynamicTraceRecord} {result : FetchResult} {fault : Bool}
    (blamed : sound 0 history = true → result = .error → fault = true) :
    Reported ⟨history, [], result, fault⟩ := by
  refine ⟨fun bad => ?_, fun well failed => ?_⟩
  · cases bad
  · rw [List.append_nil] at well
    exact blamed well failed

/-- The search of a call that catches what is invalid. -/
theorem Audited.search {a : ReplayAudit} (before : Audited a) {call : FetchCall}
    (catches : CatchesInvalid a call) (searches : a.reader.searchesBlock call.tid = true)
    {search : BlockSearch} {rest : List DynamicTraceRecord} {c : ReplayControl}
    (replayed : replayEvents call.tid (a.reader.pending call.tid) a.reader.toReplayControl =
      (search, rest, c)) :
    ∃ seen, a.reader.pending call.tid = seen ++ rest ∧ Flags (a.history ++ seen) c ∧
      (search.missing = false → sound (openSections a.history) seen = true) := by
  have searched := replayEvents_searched call.tid _ a.history _ before.flags
    (fun passed r whole => (catches searches passed r whole).2)
  rw [replayed] at searched
  refine ⟨_, searched.split, searched.flags, fun found => ?_⟩
  obtain ⟨passed, r, whole, kind⟩ := searched.block found
  have fine := (catches searches passed r whole).1 kind
  rw [whole, sound_append, fine]
  simp [sound, invalid, kind]

theorem step_reported {a : ReplayAudit} (before : Audited a) (call : FetchCall)
    (catches : CatchesInvalid a call) :
    Audited (auditStep a call).1 ∧ AllReported (auditStep a call).2 := by
  have consistent := (a.reader.fetch_records call.ret call.tid before.consistent).2
  have cases := a.reader.fetch_cases call.ret call.tid (before.consistent call.tid)
  simp only [AllReported, auditStep, memoryFault, List.mem_singleton, forall_eq]
  generalize a.reader.fetch call.ret call.tid = returned at cases consistent ⊢
  -- Calls that stay where they are among the records.
  have still : ∀ {result : FetchResult} {s' : SinucaTraceReader} {fault : Bool},
      a.reader.KeepsRecords call.tid s' → (∀ u, (s'.threadDataVec u).dynFile.Consistent) →
      (result = .error → fault = true) →
      Audited ⟨s', a.history ++ consumedBetween a.reader s' call.tid⟩ ∧
        Reported ⟨a.history, consumedBetween a.reader s' call.tid, result, fault⟩ := by
    intro result s' fault kept consistent blamed
    rw [consumedBetween_same (kept.pending_eq call.tid), List.append_nil]
    refine ⟨⟨consistent, ?_⟩, reported_nothing fun _ => blamed⟩
    rw [kept.control_eq]
    exact before.flags
  have unchanged : a.reader.KeepsRecords call.tid a.reader :=
    ⟨_, (a.reader.setThread_self call.tid).symm, rfl⟩
  cases cases with
  | executionEnded => exact still unchanged consistent (by simp)
  | idle => exact still unchanged consistent (by simp)
  | inside _ _ _ block =>
    refine still (a.reader.fetchInstruction_keepsRecords call.ret call.tid) consistent ?_
    intro failed
    obtain ⟨within, accesses, lacking⟩ := fetchInstruction_fault _ _ call.ret _ block failed
    rw [within, accesses, lacking]
    rfl
  | missing going running awake outside search rest c replayed none d left _ _ =>
    have searches := SinucaTraceReader.searchesBlock_of going running awake outside
    obtain ⟨seen, split, flags, _⟩ := before.search catches searches replayed
    have gone : consumedBetween a.reader ((a.reader.setControl c).setThread call.tid
        { a.reader.threadDataVec call.tid with dynFile := d, currentInst := 0 }) call.tid = seen :=
      consumedBetween_append seen (by simpa [SinucaTraceReader.pending, left] using split)
    rw [gone]
    refine ⟨⟨consistent, flags⟩, fun bad => ?_, fun well failed => ?_⟩
    · have fault : c.fetchFailed = true := by
        rw [flags.failed, sound_append]
        simp only [openSections] at bad
        rw [bad, Bool.and_false]
        rfl
      exact if_pos fault
    · have fine := flags.failed
      rw [well] at fine
      rw [fine] at failed
      cases failed
  | entered going running awake outside bblIndex rest c replayed d left _ _ =>
    have searches := SinucaTraceReader.searchesBlock_of going running awake outside
    obtain ⟨seen, split, flags, fine⟩ := before.search catches searches replayed
    have kept := ((a.reader.setControl c).setThread call.tid
      { a.reader.threadDataVec call.tid with
        dynFile := d, currentBasicBlock := bblIndex, currentInst := 0,
        isInsideBasicBlock := true }).fetchInstruction_keepsRecords
      call.ret call.tid
    rw [consumedBetween_append seen]
    · refine ⟨⟨consistent, ?_⟩, fun bad => ?_, fun _ failed => ?_⟩
      · rw [kept.control_eq]
        exact flags
      · rw [fine rfl] at bad
        cases bad
      · obtain ⟨within, accesses, lacking⟩ :=
          fetchInstruction_fault _ _ call.ret _ (by simp) failed
        rw [SinucaTraceReader.setThread_same] at lacking
        rw [within, accesses, lacking]
        rfl
    · rw [kept.pending_eq]
      simpa [SinucaTraceReader.pending, left] using split

/-- The calls of a replay, each with the records it consumes. -/
def audit (d : StaticDictionary) (threads : List ThreadFiles) (garbage : Nat → BitVec 64)
    (calls : List FetchCall) : ReplayAudit × List ReportedCall :=
  Machine.run auditStep ⟨.openTrace d threads garbage, []⟩ calls

theorem audited_openTrace (d : StaticDictionary) (threads : List ThreadFiles)
    (garbage : Nat → BitVec 64) : Audited ⟨.openTrace d threads garbage, []⟩ :=
  ⟨fun _ => DynamicTraceReader.consistent_openFile _, ⟨rfl, fun _ => rfl⟩⟩

/-- Where every call catches what is invalid, every call that consumes an invalid record
fails, and none does before the first of them. -/
theorem malformed_events_reported (d : StaticDictionary) (threads : List ThreadFiles)
    (garbage : Nat → BitVec 64) (calls : List FetchCall)
    (catches : Machine.Meets auditStep CatchesInvalid ⟨.openTrace d threads garbage, []⟩ calls) :
    AllReported (audit d threads garbage calls).2 := by
  refine (Machine.run_induction_of_meets auditStep CatchesInvalid
    (P := fun a _ log => Audited a ∧ AllReported log)
    ⟨audited_openTrace d threads garbage, by simp [AllReported]⟩ ?_ calls catches).2
  rintro a _ log call ⟨before, fine⟩ here
  obtain ⟨after, reported⟩ := step_reported before call here
  refine ⟨after, fun e member => ?_⟩
  rcases List.mem_append.mp member with old | new
  · exact fine e old
  · exact reported e new

/-- An end without a section, which is caught because no block follows it, on a trace
whose first call delivers an instruction. -/
theorem malformed_events_reported_lone_end :
    AllReported (audit oneInstruction [⟨[.basicBlock 0, .threadEvent 2], []⟩] (fun _ => 0)
      [⟨{}, 0⟩, ⟨{}, 0⟩]).2 := by
  apply malformed_events_reported
  refine ⟨fun _ passed r whole => ?_, fun _ passed r whole => ?_, trivial⟩
  · have block : [] ++ [DynamicTraceRecord.basicBlock 0] = passed ++ [r] :=
      whole ▸ by decide +kernel
    obtain ⟨rfl, same⟩ := List.append_inj' block rfl
    cases same
    exact ⟨fun _ => rfl, fun code unknown => by cases unknown⟩
  · have lone : [] ++ [DynamicTraceRecord.threadEvent 2] = passed ++ [r] :=
      whole ▸ by decide +kernel
    obtain ⟨rfl, same⟩ := List.append_inj' lone rfl
    cases same
    exact ⟨fun kind => absurd kind (by decide), fun code unknown => by cases unknown⟩

/-- An unknown event goes by as if the thread had nothing to fetch, and an end without
a section goes by if a block follows it. -/
theorem malformed_events_missed :
    ¬ AllReported (audit oneInstruction [⟨[.threadEvent 7], []⟩] (fun _ => 0) [⟨{}, 0⟩]).2 ∧
    ¬ AllReported (audit oneInstruction [⟨[.threadEvent 2, .basicBlock 0], []⟩] (fun _ => 0)
      [⟨{}, 0⟩]).2 := by
  constructor
  · decide +kernel
  · decide +kernel

end Sinuca3.Guarantees
