import Sinuca3.Lib.Machine
import Sinuca3.Source.Tracer.TraceReader

/-!
# Replay

A reader just opened, under any interleaving of `Fetch` calls. For the laws about
thread events only the records matter: those a thread has consumed, those it has
pending, and the shared control. `fetch_records` is what a call does to them.
-/
namespace Sinuca3.Source
open Lib

structure FetchCall where
  ret : InstructionPacket
  tid : Nat

structure FetchReturn where
  tid : Nat
  result : FetchResult
  packet : InstructionPacket

def replayStep (s : SinucaTraceReader) (call : FetchCall) :
    SinucaTraceReader × List FetchReturn :=
  let returned := s.fetch call.ret call.tid
  (returned.2.2, [⟨call.tid, returned.1, returned.2.1⟩])

/-- The reader and the log after a list of calls, in a fresh process. -/
def replay (d : StaticDictionary) (threads : List ThreadFiles) (garbage : Nat → BitVec 64)
    (calls : List FetchCall) : SinucaTraceReader × List FetchReturn :=
  Machine.run replayStep (.openTrace d threads garbage) calls

/-- A program of one instruction. -/
def oneInstruction : StaticDictionary where
  blocks := [[{}]]
  nonempty := by simp
  size_lt := by simp

/-- The event a record stands for, if it stands for one. -/
def DynamicTraceRecord.event (r : DynamicTraceRecord) : Option ThreadEventType :=
  match r.getRecordType with
  | .threadEvent => some r.getThreadEvent
  | _ => none

theorem DynamicTraceRecord.event_of_threadEvent {r : DynamicTraceRecord} {e : ThreadEventType}
    (kind : r.getRecordType = .threadEvent) (code : r.getThreadEvent = e) : r.event = some e := by
  unfold event
  rw [kind, code]

theorem DynamicTraceRecord.event_of_block {r : DynamicTraceRecord}
    (kind : r.getRecordType = .basicBlockIdentifier) : r.event = none := by
  unfold event
  rw [kind]

theorem DynamicTraceRecord.event_of_unknown {r : DynamicTraceRecord} {code : BitVec 8}
    (kind : r.getRecordType = .unknown code) : r.event = none := by
  unfold event
  rw [kind]

namespace SinucaTraceReader

def pending (s : SinucaTraceReader) (tid : Nat) : List DynamicTraceRecord :=
  (s.threadDataVec tid).dynFile.pending

/-- The records of its file that a thread has read. -/
def consumed (s : SinucaTraceReader) (threads : List ThreadFiles) (tid : Nat) :
    List DynamicTraceRecord :=
  let records := (threads.getD tid default).dynamic
  records.take (records.length - (s.pending tid).length)

/-- Every thread is somewhere in its own file. -/
structure InFiles (s : SinucaTraceReader) (threads : List ThreadFiles) : Prop where
  consistent : ∀ tid, (s.threadDataVec tid).dynFile.Consistent
  suffix : ∀ tid, s.pending tid <:+ (threads.getD tid default).dynamic

theorem inFiles_openTrace (d : StaticDictionary) (threads : List ThreadFiles)
    (garbage : Nat → BitVec 64) : (openTrace d threads garbage).InFiles threads :=
  ⟨fun _ => DynamicTraceReader.consistent_openFile _, fun _ => List.suffix_refl _⟩

theorem consumed_openTrace (d : StaticDictionary) (threads : List ThreadFiles)
    (garbage : Nat → BitVec 64) (tid : Nat) :
    (openTrace d threads garbage).consumed threads tid = [] := by
  simp [consumed, pending, openTrace]

/-- Once `seen` and `rest` are what was pending, `seen` has joined the consumed. -/
theorem InFiles.consumed_append {s s' : SinucaTraceReader} {threads : List ThreadFiles}
    (inFiles : s.InFiles threads) {tid : Nat} {seen : List DynamicTraceRecord}
    (split : s.pending tid = seen ++ s'.pending tid) :
    s'.consumed threads tid = s.consumed threads tid ++ seen := by
  obtain ⟨past, whole⟩ := inFiles.suffix tid
  simp only [consumed, ← whole, split, List.length_append]
  rw [← List.append_assoc past seen]
  have all : past.length + (seen.length + (s'.pending tid).length) - (s'.pending tid).length =
      (past ++ seen).length := by
    rw [List.length_append]
    omega
  have old : past.length + (seen.length + (s'.pending tid).length) -
      (seen.length + (s'.pending tid).length) = past.length := by omega
  rw [all, old, List.take_left, List.append_assoc, List.take_left]

theorem consumed_congr {s s' : SinucaTraceReader} {threads : List ThreadFiles} {tid : Nat}
    (same : s'.pending tid = s.pending tid) :
    s'.consumed threads tid = s.consumed threads tid := by
  rw [consumed, consumed, same]

/-- Whether a call for `tid` looks for a basic block. -/
def searchesBlock (s : SinucaTraceReader) (tid : Nat) : Bool :=
  !s.hasExecutionEnded && !(s.threadDataVec tid).dynFile.hasReachedEnd &&
    !s.isThreadSleeping tid && !(s.threadDataVec tid).isInsideBasicBlock

theorem searchesBlock_of {s : SinucaTraceReader} {tid : Nat} (going : s.hasExecutionEnded = false)
    (running : (s.threadDataVec tid).dynFile.reachedEnd = false)
    (awake : s.isThreadAwake tid = true)
    (outside : (s.threadDataVec tid).isInsideBasicBlock = false) : s.searchesBlock tid = true := by
  simp [searchesBlock, going, DynamicTraceReader.hasReachedEnd, running, isThreadSleeping, awake,
    outside]

/-- What a call does to the records and the control: nothing, or one search by an
awake thread. -/
inductive RecordsCase (s : SinucaTraceReader) (tid : Nat) (result : FetchResult)
    (s' : SinucaTraceReader) : Prop where
  | kept (control : s'.toReplayControl = s.toReplayControl)
      (pending : ∀ u, s'.pending u = s.pending u)
      (awake : result = .ok → s.isThreadAwake tid = true) : RecordsCase s tid result s'
  | searched (searches : s.searchesBlock tid = true) (awake : s.isThreadAwake tid = true)
      (search : BlockSearch)
      (replayed : replayEvents tid (s.pending tid) s.toReplayControl =
        (search, s'.pending tid, s'.toReplayControl))
      (others : ∀ u, u ≠ tid → s'.pending u = s.pending u)
      (found : result = .ok → search.missing = false) : RecordsCase s tid result s'

theorem KeepsRecords.dynFile_eq {s s' : SinucaTraceReader} {tid : Nat}
    (kept : s.KeepsRecords tid s') (u : Nat) :
    (s'.threadDataVec u).dynFile = (s.threadDataVec u).dynFile := by
  obtain ⟨t, rfl, same⟩ := kept
  by_cases here : u = tid
  · subst here
    rw [setThread_same, same]
  · rw [setThread_other _ _ _ _ here]

theorem KeepsRecords.pending_eq {s s' : SinucaTraceReader} {tid : Nat}
    (kept : s.KeepsRecords tid s') (u : Nat) : s'.pending u = s.pending u := by
  rw [pending, pending, kept.dynFile_eq]

theorem KeepsRecords.control_eq {s s' : SinucaTraceReader} {tid : Nat}
    (kept : s.KeepsRecords tid s') : s'.toReplayControl = s.toReplayControl := by
  obtain ⟨t, rfl, _⟩ := kept
  rfl

theorem KeepsRecords.consistent {s s' : SinucaTraceReader} {tid : Nat}
    (kept : s.KeepsRecords tid s')
    (before : ∀ u, (s.threadDataVec u).dynFile.Consistent) (u : Nat) :
    (s'.threadDataVec u).dynFile.Consistent := by
  rw [kept.dynFile_eq]
  exact before u

/-- The search of a call, and the state in which it leaves the reader. -/
theorem fetch_records (s : SinucaTraceReader) (ret : InstructionPacket) (tid : Nat)
    (consistent : ∀ u, (s.threadDataVec u).dynFile.Consistent) :
    RecordsCase s tid (s.fetch ret tid).1 (s.fetch ret tid).2.2 ∧
      ∀ u, ((s.fetch ret tid).2.2.threadDataVec u).dynFile.Consistent := by
  have cases := s.fetch_cases ret tid (consistent tid)
  generalize s.fetch ret tid = result at cases ⊢
  cases cases with
  | executionEnded finished => exact ⟨.kept rfl (fun _ => rfl) (by simp), consistent⟩
  | idle => exact ⟨.kept rfl (fun _ => rfl) (by simp), consistent⟩
  | inside _ _ awake _ =>
    have kept := s.fetchInstruction_keepsRecords ret tid
    exact ⟨.kept kept.control_eq kept.pending_eq (fun _ => awake), kept.consistent consistent⟩
  | missing going running awake outside search rest c replayed none r left fresh _ =>
    refine ⟨.searched (searchesBlock_of going running awake outside) awake search ?_ ?_ ?_, ?_⟩
    · simpa [pending, left] using replayed
    · intro u other
      simp [pending, other]
    · intro ok
      split at ok <;> cases ok
    · intro u
      by_cases here : u = tid
      · subst here
        simpa using fresh
      · simpa [here] using consistent u
  | entered going running awake outside bblIndex rest c replayed r left fresh _ =>
    have kept := ((s.setControl c).setThread tid { s.threadDataVec tid with
      dynFile := r, currentBasicBlock := bblIndex, currentInst := 0,
      isInsideBasicBlock := true }).fetchInstruction_keepsRecords ret tid
    generalize SinucaTraceReader.fetchInstruction _ ret tid = out at kept ⊢
    refine ⟨.searched (searchesBlock_of going running awake outside) awake (.found bblIndex) ?_ ?_
      (fun _ => rfl), kept.consistent ?_⟩
    · rw [kept.pending_eq, kept.control_eq]
      simpa [pending, left] using replayed
    · intro u other
      rw [kept.pending_eq]
      simp [pending, other]
    · intro u
      by_cases here : u = tid
      · subst here
        simpa using fresh
      · simpa [here] using consistent u

/-- What a search leaves is a suffix of what was pending. -/
theorem replayEvents_split (tid : Nat) (records : List DynamicTraceRecord) (c : ReplayControl)
    (search : BlockSearch) (rest : List DynamicTraceRecord) (c' : ReplayControl)
    (replayed : replayEvents tid records c = (search, rest, c')) : rest <:+ records := by
  induction records generalizing c with
  | nil =>
    cases replayed
    exact List.suffix_refl []
  | cons r tail ih =>
    unfold replayEvents at replayed
    split at replayed
    · split at replayed
      · cases replayed
        exact List.suffix_cons r rest
      · exact (ih _ replayed).trans (List.suffix_cons r tail)
    · cases replayed
      exact List.suffix_cons r rest
    · cases replayed
      exact List.suffix_cons r rest

theorem RecordsCase.suffix {s s' : SinucaTraceReader} {tid : Nat} {result : FetchResult}
    (cases : RecordsCase s tid result s') (u : Nat) : s'.pending u <:+ s.pending u := by
  cases cases with
  | kept _ pending _ => exact pending u ▸ List.suffix_refl _
  | searched _ _ search replayed others _ =>
    by_cases here : u = tid
    · subst here
      exact replayEvents_split _ _ _ _ _ _ replayed
    · exact others u here ▸ List.suffix_refl _

theorem step_preserves_inFiles {s : SinucaTraceReader} {threads : List ThreadFiles}
    (before : s.InFiles threads) (call : FetchCall) : (replayStep s call).1.InFiles threads := by
  obtain ⟨cases, consistent⟩ := s.fetch_records call.ret call.tid before.consistent
  exact ⟨consistent, fun u => (cases.suffix u).trans (before.suffix u)⟩

/-- A search ends only with nothing left. -/
theorem replayEvents_ended (tid : Nat) (records : List DynamicTraceRecord) (c : ReplayControl)
    (rest : List DynamicTraceRecord) (c' : ReplayControl)
    (replayed : replayEvents tid records c = (.ended, rest, c')) : rest = [] := by
  induction records generalizing c with
  | nil =>
    cases replayed
    rfl
  | cons r tail ih =>
    unfold replayEvents at replayed
    split at replayed
    · split at replayed
      · cases replayed
      · exact ih _ replayed
    · cases replayed
    · cases replayed

/-- A thread has seen the end of its file only when nothing of it is pending. -/
def EndsRead (s : SinucaTraceReader) : Prop :=
  ∀ u, (s.threadDataVec u).dynFile.reachedEnd = true → s.pending u = []

theorem KeepsRecords.endsRead {s s' : SinucaTraceReader} {tid : Nat}
    (kept : s.KeepsRecords tid s') (before : s.EndsRead) : s'.EndsRead := by
  intro u ended
  rw [kept.dynFile_eq] at ended
  rw [kept.pending_eq]
  exact before u ended

theorem step_preserves_endsRead {s : SinucaTraceReader} (before : s.EndsRead) (call : FetchCall)
    (consistent : ∀ u, (s.threadDataVec u).dynFile.Consistent) :
    (replayStep s call).1.EndsRead := by
  have cases := s.fetch_cases call.ret call.tid (consistent call.tid)
  change (s.fetch call.ret call.tid).2.2.EndsRead
  generalize s.fetch call.ret call.tid = result at cases ⊢
  cases cases with
  | executionEnded => exact before
  | idle => exact before
  | inside => exact (s.fetchInstruction_keepsRecords call.ret call.tid).endsRead before
  | missing _ _ _ _ search rest c replayed _ d left _ ended =>
    intro u seen
    by_cases here : u = call.tid
    · subst here
      rw [setThread_same] at seen
      rw [ended.mp seen] at replayed
      have none := replayEvents_ended _ _ _ _ _ replayed
      simpa [pending, none] using left
    · rw [setThread_other _ _ _ _ here] at seen
      simpa [pending, here] using before u seen
  | entered _ _ _ _ bblIndex rest c _ d _ _ running' =>
    apply (SinucaTraceReader.fetchInstruction_keepsRecords _ call.ret call.tid).endsRead
    intro u seen
    by_cases here : u = call.tid
    · subst here
      rw [setThread_same] at seen
      simp [running'] at seen
    · rw [setThread_other _ _ _ _ here] at seen
      simpa [pending, here] using before u seen

theorem endsRead_openTrace (d : StaticDictionary) (threads : List ThreadFiles)
    (garbage : Nat → BitVec 64) : (openTrace d threads garbage).EndsRead := by
  intro u seen
  cases seen

/-- A call keeps the ends that were seen, and sees another only in a search that runs
out of records. -/
theorem step_reachedEnd (s : SinucaTraceReader) (call : FetchCall)
    (consistent : ∀ u, (s.threadDataVec u).dynFile.Consistent) (u : Nat) :
    ((s.threadDataVec u).dynFile.reachedEnd = true →
      ((replayStep s call).1.threadDataVec u).dynFile.reachedEnd = true) ∧
    (((replayStep s call).1.threadDataVec u).dynFile.reachedEnd = true →
      (s.threadDataVec u).dynFile.reachedEnd = true ∨
        u = call.tid ∧ s.searchesBlock call.tid = true ∧
          (replayEvents call.tid (s.pending call.tid) s.toReplayControl).1 = .ended) := by
  have cases := s.fetch_cases call.ret call.tid (consistent call.tid)
  change (_ → ((s.fetch call.ret call.tid).2.2.threadDataVec u).dynFile.reachedEnd = true) ∧
    (((s.fetch call.ret call.tid).2.2.threadDataVec u).dynFile.reachedEnd = true → _)
  generalize s.fetch call.ret call.tid = result at cases ⊢
  cases cases with
  | executionEnded => exact ⟨id, .inl⟩
  | idle => exact ⟨id, .inl⟩
  | inside =>
    rw [(s.fetchInstruction_keepsRecords call.ret call.tid).dynFile_eq]
    exact ⟨id, .inl⟩
  | missing going running awake outside search rest c replayed _ d _ _ ended =>
    by_cases here : u = call.tid
    · subst here
      rw [setThread_same]
      refine ⟨fun seen => by simp [running] at seen, fun seen => .inr ⟨rfl, ?_, ?_⟩⟩
      · exact searchesBlock_of going running awake outside
      · rw [pending, replayed]
        exact ended.mp seen
    · rw [setThread_other _ _ _ _ here]
      exact ⟨id, .inl⟩
  | entered _ running _ _ bblIndex rest c _ d _ _ running' =>
    rw [(SinucaTraceReader.fetchInstruction_keepsRecords _ call.ret call.tid).dynFile_eq]
    by_cases here : u = call.tid
    · subst here
      rw [setThread_same]
      exact ⟨fun seen => by simp [running] at seen, fun seen => by simp [running'] at seen⟩
    · rw [setThread_other _ _ _ _ here]
      exact ⟨id, .inl⟩

end SinucaTraceReader

end Sinuca3.Source
