import Mathlib.Logic.Function.Basic
import Sinuca3.Source.Tracer.DynamicTraceReader
import Sinuca3.Source.Tracer.MemoryTraceReader

/-!
# Trace reader

`tracer/trace_reader.hpp` and `tracer/sinuca/trace_reader.cpp`. What the event
loop of `FetchBasicBlock` shares between threads, its two function-static
counters included, is a `ReplayControl`; the rest of a `ThreadData` belongs to
one thread.

The loop works on record arrays; `replayEvents` is the same loop on the records a
thread has pending, and `fetchBasicBlock_eq` says that the code computes it.
`fetch_cases` is everything a call of `Fetch` can do.
-/
namespace Sinuca3.Source

inductive FetchResult where
  | ok
  | end_
  | error
  | nop
  deriving DecidableEq, Repr

/-- `isThreadAwake` of all threads, and the state of the reader that the thread
events change. -/
structure ReplayControl where
  totalThreads : Nat
  criticalCont : Int := 0
  barrierCont : Int := 0
  isThreadAwake : Nat → Bool := fun _ => true
  fetchFailed : Bool := false
  reachedAbruptEnd : Bool := false

/-- One iteration of the event loop: the second component tells whether it leaves
`FetchBasicBlock` without a basic block. -/
def ReplayControl.handleEvent (c : ReplayControl) (tid : Nat) :
    ThreadEventType → ReplayControl × Bool
  | .abruptEnd => ({ c with reachedAbruptEnd := true }, true)
  | .criticalStart =>
    ({ c with
        criticalCont := c.criticalCont + 1
        isThreadAwake := fun i => if i = tid then c.isThreadAwake i else false }, false)
  | .criticalEnd =>
    let c := { c with criticalCont := c.criticalCont - 1 }
    if c.criticalCont = 0 then ({ c with isThreadAwake := fun _ => true }, false)
    else if c.criticalCont < 0 then ({ c with fetchFailed := true }, false)
    else (c, false)
  | .barrierSync =>
    let c := { c with barrierCont := c.barrierCont + 1 }
    if c.barrierCont = c.totalThreads then
      ({ c with isThreadAwake := fun _ => true, barrierCont := 0 }, false)
    else
      ({ c with isThreadAwake := Function.update c.isThreadAwake tid false }, true)
  | .unknown _ => (c, true)

/-- What becomes of a thread that looks for its next basic block. -/
inductive BlockSearch where
  | found (bblIndex : Nat)
  | stopped
  | ended
  deriving DecidableEq, Repr

/-- Whether `FetchBasicBlock` returns without a basic block. -/
def BlockSearch.missing : BlockSearch → Bool
  | .found _ => false
  | _ => true

/-- The event loop on the pending records: what it finds, and the records it
leaves. -/
def replayEvents (tid : Nat) :
    List DynamicTraceRecord → ReplayControl → BlockSearch × List DynamicTraceRecord × ReplayControl
  | [], c => (.ended, [], c)
  | r :: rest, c =>
    match r.getRecordType with
    | .threadEvent =>
      match c.handleEvent tid r.getThreadEvent with
      | (c, true) => (.stopped, rest, c)
      | (c, false) => replayEvents tid rest c
    | .basicBlockIdentifier => (.found r.getBasicBlockIdentifier, rest, c)
    | .unknown _ => (.stopped, rest, { c with fetchFailed := true })

structure ThreadData where
  dynFile : DynamicTraceReader
  memFile : MemoryTraceReader
  currentBasicBlock : Nat
  fetchedInst : BitVec 64
  currentInst : Nat
  isInsideBasicBlock : Bool

/-- The dictionary arrays are functions: out of their range they are whatever the
memory holds. -/
structure SinucaTraceReader extends ReplayControl where
  basicBlockSizeArr : Nat → Int
  instructionDict : Nat → Nat → StaticInstructionInfo
  threadDataVec : Nat → ThreadData

namespace SinucaTraceReader

/-- The reader with the data of one thread replaced. -/
def setThread (s : SinucaTraceReader) (tid : Nat) (t : ThreadData) : SinucaTraceReader :=
  { s with threadDataVec := Function.update s.threadDataVec tid t }

/-- The reader with the shared part replaced. -/
def setControl (s : SinucaTraceReader) (c : ReplayControl) : SinucaTraceReader :=
  { s with toReplayControl := c }

section Setters

variable (s : SinucaTraceReader) (tid : Nat) (t t' : ThreadData) (c c' : ReplayControl)

@[simp] theorem setThread_same : (s.setThread tid t).threadDataVec tid = t :=
  Function.update_self ..

@[simp] theorem setThread_other (u : Nat) (other : u ≠ tid) :
    (s.setThread tid t).threadDataVec u = s.threadDataVec u :=
  Function.update_of_ne other ..

@[simp] theorem setThread_control : (s.setThread tid t).toReplayControl = s.toReplayControl := rfl

@[simp] theorem setThread_sizes :
    (s.setThread tid t).basicBlockSizeArr = s.basicBlockSizeArr := rfl

@[simp] theorem setThread_dict : (s.setThread tid t).instructionDict = s.instructionDict := rfl

@[simp] theorem setControl_control : (s.setControl c).toReplayControl = c := rfl

@[simp] theorem setControl_thread : (s.setControl c).threadDataVec = s.threadDataVec := rfl

@[simp] theorem setControl_sizes :
    (s.setControl c).basicBlockSizeArr = s.basicBlockSizeArr := rfl

@[simp] theorem setControl_same : s.setControl s.toReplayControl = s := rfl

@[simp] theorem setControl_dict : (s.setControl c).instructionDict = s.instructionDict := rfl

@[simp] theorem setThread_setThread : (s.setThread tid t).setThread tid t' = s.setThread tid t' := by
  simp [setThread]

@[simp] theorem setControl_setControl : (s.setControl c).setControl c' = s.setControl c' := rfl

theorem setThread_setControl : (s.setThread tid t).setControl c = (s.setControl c).setThread tid t :=
  rfl

end Setters

def isThreadSleeping (s : SinucaTraceReader) (tid : Nat) : Bool := !s.isThreadAwake tid

/-- Ends with the whole program: an abrupt end, or the end of thread 0's file. -/
def hasExecutionEnded (s : SinucaTraceReader) : Bool :=
  if s.reachedAbruptEnd then true
  else (s.threadDataVec 0).dynFile.hasReachedEnd

/-- What `FetchBasicBlock` does when `ReadDynamicRecord` fails. -/
def failedRead (s : SinucaTraceReader) (tid : Nat) : SinucaTraceReader :=
  if (s.threadDataVec tid).dynFile.hasReachedEnd then s else { s with fetchFailed := true }

def readRecord (s : SinucaTraceReader) (tid : Nat) : Bool × SinucaTraceReader :=
  let t := s.threadDataVec tid
  let result := t.dynFile.readDynamicRecord
  (result.1, s.setThread tid { t with dynFile := result.2 })

/-- The loop over thread events, which starts with a record already read. Each
iteration reads one more record, which bounds the iterations by what is pending. -/
def eventLoop : Nat → SinucaTraceReader → Nat → Bool × SinucaTraceReader
  | 0, s, _ => (true, s)
  | fuel + 1, s, tid =>
    let record := (s.threadDataVec tid).dynFile.current
    match record.getRecordType with
    | .threadEvent =>
      match s.handleEvent tid record.getThreadEvent with
      | (c, true) => (true, s.setControl c)
      | (c, false) =>
        match (s.setControl c).readRecord tid with
        | (true, s) => (true, s.failedRead tid)
        | (false, s) => eventLoop fuel s tid
    | .basicBlockIdentifier =>
      (false, s.setThread tid
        { s.threadDataVec tid with currentBasicBlock := record.getBasicBlockIdentifier })
    | .unknown _ => (true, { s with fetchFailed := true })

/-- Non-zero return codes are `true` here and below. -/
def fetchBasicBlock (s : SinucaTraceReader) (tid : Nat) : Bool × SinucaTraceReader :=
  match s.readRecord tid with
  | (true, s) => (true, s.failedRead tid)
  | (false, s) => eventLoop ((s.threadDataVec tid).dynFile.pending.length + 1) s tid

def fetchMemoryData (s : SinucaTraceReader) (ret : InstructionPacket) (tid : Nat) :
    Bool × InstructionPacket × SinucaTraceReader :=
  let t := s.threadDataVec tid
  if t.memFile.hasReachedEnd then (true, ret, s)
  else
    let result := t.memFile.readMemoryOperations ret
    (result.1, result.2.1, s.setThread tid { t with memFile := result.2.2 })

/-- The null static information the source puts here is replaced at once. -/
def resetInstructionPacket (pkt : InstructionPacket) : InstructionPacket :=
  { pkt with dynamicInfo := { pkt.dynamicInfo with numReadings := 0, numWritings := 0 } }

/-- The tail of `Fetch`: step past the instruction, and out of the block after its
last one. -/
def countInstruction (s : SinucaTraceReader) (tid : Nat) : SinucaTraceReader :=
  let t := s.threadDataVec tid
  let t := { t with currentInst := t.currentInst + 1 }
  let t :=
    if (t.currentInst : Int) ≥ s.basicBlockSizeArr t.currentBasicBlock then
      { t with isInsideBasicBlock := false }
    else t
  s.setThread tid { t with fetchedInst := t.fetchedInst + 1 }

/-- `Fetch` once the thread is inside a basic block. -/
def fetchInstruction (s : SinucaTraceReader) (ret : InstructionPacket) (tid : Nat) :
    FetchResult × InstructionPacket × SinucaTraceReader :=
  let t := s.threadDataVec tid
  let ret := { resetInstructionPacket ret with
    staticInfo := s.instructionDict t.currentBasicBlock t.currentInst }
  if ret.staticInfo.instReadsMemory || ret.staticInfo.instWritesMemory then
    match s.fetchMemoryData ret tid with
    | (true, ret, s) => (.error, ret, s)
    | (false, ret, s) => (.ok, ret, s.countInstruction tid)
  else (.ok, ret, s.countInstruction tid)

def fetch (s : SinucaTraceReader) (ret : InstructionPacket) (tid : Nat) :
    FetchResult × InstructionPacket × SinucaTraceReader :=
  if s.hasExecutionEnded then (.end_, ret, s)
  else if (s.threadDataVec tid).dynFile.hasReachedEnd then (.nop, ret, s)
  else if s.isThreadSleeping tid then (.nop, ret, s)
  else if (s.threadDataVec tid).isInsideBasicBlock then s.fetchInstruction ret tid
  else
    match (s.setThread tid { s.threadDataVec tid with currentInst := 0 }).fetchBasicBlock tid with
    | (true, s) => (if s.fetchFailed then .error else .nop, ret, s)
    | (false, s) =>
      (s.setThread tid { s.threadDataVec tid with isInsideBasicBlock := true }).fetchInstruction
        ret tid

end SinucaTraceReader

/-- The basic blocks of a program, as `GenerateInstructionDict` lays them out. The
static trace keeps a block's size in 16 bits. -/
structure StaticDictionary where
  blocks : List (List StaticInstructionInfo)
  nonempty : ∀ b ∈ blocks, b ≠ []
  size_lt : ∀ b ∈ blocks, b.length < 65536

def StaticDictionary.block (d : StaticDictionary) (bblIndex : Nat) : List StaticInstructionInfo :=
  d.blocks.getD bblIndex []

/-- The records of one thread's two trace files. -/
structure ThreadFiles where
  dynamic : List DynamicTraceRecord
  memory : List MemoryTraceRecord
  deriving Inhabited

/-- A reader just opened, in a process that has opened no other. The counters of
instructions start with whatever the allocation left in them. -/
def SinucaTraceReader.openTrace (d : StaticDictionary) (threads : List ThreadFiles)
    (garbage : Nat → BitVec 64) : SinucaTraceReader where
  totalThreads := threads.length
  basicBlockSizeArr := fun bblIndex => (d.block bblIndex).length
  instructionDict := fun bblIndex inst => (d.block bblIndex).getD inst default
  threadDataVec := fun tid =>
    let files := threads.getD tid default
    { dynFile := .openFile files.dynamic
      memFile := .openFile files.memory
      currentBasicBlock := 0
      fetchedInst := garbage tid
      currentInst := 0
      isInsideBasicBlock := false }

namespace SinucaTraceReader

/-- One read of the thread's records, on a thread that has not seen their end. -/
theorem readRecord_cons (s : SinucaTraceReader) (tid : Nat)
    (consistent : (s.threadDataVec tid).dynFile.Consistent)
    (running : (s.threadDataVec tid).dynFile.reachedEnd = false)
    (r : DynamicTraceRecord) (rest : List DynamicTraceRecord)
    (next : (s.threadDataVec tid).dynFile.pending = r :: rest) :
    ∃ d, s.readRecord tid = (false, s.setThread tid { s.threadDataVec tid with dynFile := d }) ∧
      d.current = r ∧ d.pending = rest ∧ d.Consistent ∧ d.reachedEnd = false := by
  obtain ⟨d, read, here, later, fresh, same⟩ :=
    DynamicTraceReader.readDynamicRecord_cons _ consistent running r rest next
  exact ⟨d, by simp [readRecord, read], here, later, fresh, same⟩

theorem readRecord_nil (s : SinucaTraceReader) (tid : Nat)
    (consistent : (s.threadDataVec tid).dynFile.Consistent)
    (running : (s.threadDataVec tid).dynFile.reachedEnd = false)
    (done : (s.threadDataVec tid).dynFile.pending = []) :
    ∃ d, s.readRecord tid = (true, s.setThread tid { s.threadDataVec tid with dynFile := d }) ∧
      d.pending = [] ∧ d.Consistent ∧ d.reachedEnd = true := by
  obtain ⟨d, read, empty, fresh, ended⟩ :=
    DynamicTraceReader.readDynamicRecord_nil _ consistent running done
  exact ⟨d, by simp [readRecord, read], empty, fresh, ended⟩

/-- A search that found a block moves the thread there; every search replaces its
reader. -/
def searched (t : ThreadData) (d : DynamicTraceReader) : BlockSearch → ThreadData
  | .found bblIndex => { t with dynFile := d, currentBasicBlock := bblIndex }
  | _ => { t with dynFile := d }

/-- The outcome of `FetchBasicBlock` that goes with what `replayEvents` computes. -/
def SearchOutcome (s : SinucaTraceReader) (tid : Nat)
    (search : BlockSearch × List DynamicTraceRecord × ReplayControl)
    (result : Bool × SinucaTraceReader) : Prop :=
  ∃ d, result = (search.1.missing,
      (s.setControl search.2.2).setThread tid (searched (s.threadDataVec tid) d search.1)) ∧
    d.pending = search.2.1 ∧ d.Consistent ∧ (d.reachedEnd = true ↔ search.1 = .ended)

theorem setThread_self (s : SinucaTraceReader) (tid : Nat) :
    s.setThread tid (s.threadDataVec tid) = s := by
  simp [setThread]

/-- A search that stops at the record it starts with. -/
theorem SearchOutcome.stopped {s : SinucaTraceReader} {tid : Nat} {rest : List DynamicTraceRecord}
    (c : ReplayControl) (consistent : (s.threadDataVec tid).dynFile.Consistent)
    (running : (s.threadDataVec tid).dynFile.reachedEnd = false)
    (left : (s.threadDataVec tid).dynFile.pending = rest) :
    SearchOutcome s tid (.stopped, rest, c) (true, s.setControl c) := by
  refine ⟨(s.threadDataVec tid).dynFile, ?_, left, consistent, by simp [running]⟩
  exact congrArg (fun s' => (true, s'.setControl c)) (setThread_self s tid).symm

/-- A read in the middle of a search does not show in its outcome. -/
theorem SearchOutcome.of_read {s : SinucaTraceReader} {tid : Nat} {c : ReplayControl}
    {d : DynamicTraceReader} {search : BlockSearch × List DynamicTraceRecord × ReplayControl}
    {result : Bool × SinucaTraceReader}
    (later : SearchOutcome
      ((s.setControl c).setThread tid { s.threadDataVec tid with dynFile := d }) tid search result) :
    SearchOutcome s tid search result := by
  obtain ⟨d', same, rest⟩ := later
  refine ⟨d', ?_, rest⟩
  rw [same, setThread_setControl, setThread_setThread, setThread_same, setControl_setControl]
  cases search.1 <;> rfl

/-- The loop computes `replayEvents` on the record it starts with and those that
are pending. -/
theorem eventLoop_eq (fuel : Nat) (s : SinucaTraceReader) (tid : Nat)
    (consistent : (s.threadDataVec tid).dynFile.Consistent)
    (running : (s.threadDataVec tid).dynFile.reachedEnd = false)
    (enough : (s.threadDataVec tid).dynFile.pending.length < fuel) :
    SearchOutcome s tid
      (replayEvents tid ((s.threadDataVec tid).dynFile.current ::
        (s.threadDataVec tid).dynFile.pending) s.toReplayControl)
      (eventLoop fuel s tid) := by
  induction fuel generalizing s with
  | zero => omega
  | succ fuel ih =>
    cases kind : (s.threadDataVec tid).dynFile.current.getRecordType with
    | basicBlockIdentifier =>
      simp only [eventLoop, replayEvents, kind]
      exact ⟨(s.threadDataVec tid).dynFile, rfl, rfl, consistent, by simp [running]⟩
    | unknown code =>
      simp only [eventLoop, replayEvents, kind]
      exact SearchOutcome.stopped _ consistent running rfl
    | threadEvent =>
      rcases handled : s.handleEvent tid (s.threadDataVec tid).dynFile.current.getThreadEvent with
        ⟨c, _ | _⟩
      · -- The loop goes on with the record after this one, if there is one.
        cases next : (s.threadDataVec tid).dynFile.pending with
        | nil =>
          obtain ⟨d, read, empty, fresh, ended⟩ :=
            (s.setControl c).readRecord_nil tid consistent running next
          simp only [eventLoop, replayEvents, kind, handled, read]
          refine ⟨d, ?_, empty, fresh, by simp [ended]⟩
          simp [failedRead, DynamicTraceReader.hasReachedEnd, ended, searched,
            BlockSearch.missing]
        | cons r rest =>
          obtain ⟨d, read, here, later, fresh, same⟩ :=
            (s.setControl c).readRecord_cons tid consistent running r rest next
          have shorter : rest.length < fuel := by
            rw [next, List.length_cons] at enough
            omega
          have whole := ih
            ((s.setControl c).setThread tid { s.threadDataVec tid with dynFile := d })
            (by simpa using fresh) (by simpa using same) (by simpa [later] using shorter)
          simp only [setThread_same, here, later, setThread_control, setControl_control] at whole
          rw [eventLoop, replayEvents]
          simp only [kind, handled, read]
          exact whole.of_read
      · simp only [eventLoop, replayEvents, kind, handled]
        exact SearchOutcome.stopped _ consistent running rfl

/-- `FetchBasicBlock` computes `replayEvents` on the thread's pending records,
wherever the boundaries of the record arrays fall. -/
theorem fetchBasicBlock_eq (s : SinucaTraceReader) (tid : Nat)
    (consistent : (s.threadDataVec tid).dynFile.Consistent)
    (running : (s.threadDataVec tid).dynFile.reachedEnd = false) :
    SearchOutcome s tid
      (replayEvents tid (s.threadDataVec tid).dynFile.pending s.toReplayControl)
      (s.fetchBasicBlock tid) := by
  unfold fetchBasicBlock
  cases next : (s.threadDataVec tid).dynFile.pending with
  | nil =>
    obtain ⟨d, read, empty, fresh, ended⟩ := s.readRecord_nil tid consistent running next
    refine ⟨d, ?_, empty, fresh, by simp [ended, replayEvents]⟩
    rw [read]
    simp [failedRead, DynamicTraceReader.hasReachedEnd, ended, replayEvents, searched,
      BlockSearch.missing]
  | cons r rest =>
    obtain ⟨d, read, here, later, fresh, same⟩ :=
      s.readRecord_cons tid consistent running r rest next
    rw [read]
    have whole := eventLoop_eq (d.pending.length + 1)
      ((s.setControl s.toReplayControl).setThread tid { s.threadDataVec tid with dynFile := d })
      tid (by simpa using fresh) (by simpa using same) (by simp)
    simp only [setThread_same, here, setThread_control, setControl_control] at whole
    rw [later] at whole
    simpa [later] using whole.of_read

/-- `s'` differs from `s` in thread `tid` only, and there not in its records. -/
def KeepsRecords (s : SinucaTraceReader) (tid : Nat) (s' : SinucaTraceReader) : Prop :=
  ∃ t, s' = s.setThread tid t ∧ t.dynFile = (s.threadDataVec tid).dynFile

theorem countInstruction_keepsRecords (s : SinucaTraceReader) (tid : Nat) :
    s.KeepsRecords tid (s.countInstruction tid) := by
  refine ⟨_, rfl, ?_⟩
  dsimp only
  split <;> rfl

theorem fetchMemoryData_keepsRecords (s : SinucaTraceReader) (ret : InstructionPacket)
    (tid : Nat) : s.KeepsRecords tid (s.fetchMemoryData ret tid).2.2 := by
  unfold fetchMemoryData
  dsimp only
  split
  · exact ⟨s.threadDataVec tid, (setThread_self s tid).symm, rfl⟩
  · exact ⟨_, rfl, rfl⟩

theorem KeepsRecords.trans {s s' s'' : SinucaTraceReader} {tid : Nat}
    (first : s.KeepsRecords tid s') (second : s'.KeepsRecords tid s'') :
    s.KeepsRecords tid s'' := by
  obtain ⟨t, rfl, kept⟩ := first
  obtain ⟨t', rfl, kept'⟩ := second
  exact ⟨t', by simp, by rw [kept', setThread_same, kept]⟩

/-- The tail of `Fetch` touches neither the shared state nor any thread's place
among its records. -/
theorem fetchInstruction_keepsRecords (s : SinucaTraceReader) (ret : InstructionPacket)
    (tid : Nat) : s.KeepsRecords tid (s.fetchInstruction ret tid).2.2 := by
  unfold fetchInstruction
  dsimp only
  split
  · have read := s.fetchMemoryData_keepsRecords
      { resetInstructionPacket ret with
        staticInfo := s.instructionDict (s.threadDataVec tid).currentBasicBlock
          (s.threadDataVec tid).currentInst } tid
    split
    · rename_i failed
      rw [failed] at read
      exact read
    · rename_i done
      rw [done] at read
      exact read.trans (countInstruction_keepsRecords _ tid)
  · exact s.countInstruction_keepsRecords tid

/-- Everything a call of `Fetch` can do. -/
inductive FetchCase (s : SinucaTraceReader) (ret : InstructionPacket) (tid : Nat) :
    FetchResult × InstructionPacket × SinucaTraceReader → Prop where
  | executionEnded (finished : s.hasExecutionEnded = true) : FetchCase s ret tid (.end_, ret, s)
  | idle (going : s.hasExecutionEnded = false)
      (waiting : (s.threadDataVec tid).dynFile.reachedEnd = true ∨ s.isThreadAwake tid = false) :
      FetchCase s ret tid (.nop, ret, s)
  | inside (going : s.hasExecutionEnded = false)
      (running : (s.threadDataVec tid).dynFile.reachedEnd = false)
      (awake : s.isThreadAwake tid = true)
      (block : (s.threadDataVec tid).isInsideBasicBlock = true) :
      FetchCase s ret tid (s.fetchInstruction ret tid)
  | missing (going : s.hasExecutionEnded = false)
      (running : (s.threadDataVec tid).dynFile.reachedEnd = false)
      (awake : s.isThreadAwake tid = true)
      (outside : (s.threadDataVec tid).isInsideBasicBlock = false)
      (search : BlockSearch) (rest : List DynamicTraceRecord) (c : ReplayControl)
      (replayed : replayEvents tid (s.threadDataVec tid).dynFile.pending s.toReplayControl =
        (search, rest, c))
      (none : search.missing = true) (d : DynamicTraceReader)
      (left : d.pending = rest) (fresh : d.Consistent)
      (ended : d.reachedEnd = true ↔ search = .ended) :
      FetchCase s ret tid (if c.fetchFailed then .error else .nop, ret,
        (s.setControl c).setThread tid { s.threadDataVec tid with dynFile := d, currentInst := 0 })
  | entered (going : s.hasExecutionEnded = false)
      (running : (s.threadDataVec tid).dynFile.reachedEnd = false)
      (awake : s.isThreadAwake tid = true)
      (outside : (s.threadDataVec tid).isInsideBasicBlock = false)
      (bblIndex : Nat) (rest : List DynamicTraceRecord) (c : ReplayControl)
      (replayed : replayEvents tid (s.threadDataVec tid).dynFile.pending s.toReplayControl =
        (.found bblIndex, rest, c))
      (d : DynamicTraceReader) (left : d.pending = rest) (fresh : d.Consistent)
      (running' : d.reachedEnd = false) :
      FetchCase s ret tid
        (((s.setControl c).setThread tid { s.threadDataVec tid with
            dynFile := d, currentBasicBlock := bblIndex, currentInst := 0,
            isInsideBasicBlock := true }).fetchInstruction ret tid)

theorem fetch_cases (s : SinucaTraceReader) (ret : InstructionPacket) (tid : Nat)
    (consistent : (s.threadDataVec tid).dynFile.Consistent) :
    FetchCase s ret tid (s.fetch ret tid) := by
  unfold fetch
  split
  · rename_i finished
    exact .executionEnded finished
  rename_i going
  rw [Bool.not_eq_true] at going
  split
  · rename_i ended
    exact .idle going (.inl ended)
  rename_i running
  split
  · rename_i sleeping
    exact .idle going (.inr (by simpa [isThreadSleeping] using sleeping))
  rename_i awake
  have running : (s.threadDataVec tid).dynFile.reachedEnd = false :=
    Bool.eq_false_iff.mpr running
  have awake : s.isThreadAwake tid = true := by simpa [isThreadSleeping] using awake
  split
  · rename_i block
    exact .inside going running awake block
  rename_i outside
  rw [Bool.not_eq_true] at outside
  obtain ⟨d, found, left, fresh, ended⟩ :=
    (s.setThread tid { s.threadDataVec tid with currentInst := 0 }).fetchBasicBlock_eq tid
      (by simpa using consistent) (by simpa using running)
  simp only [setThread_same, setThread_control] at found left ended
  rcases replayed : replayEvents tid (s.threadDataVec tid).dynFile.pending s.toReplayControl with
    ⟨search, rest, c⟩
  rw [replayed] at found left ended
  rw [found]
  have place : ∀ t', ((s.setThread tid { s.threadDataVec tid with currentInst := 0 }).setControl
      c).setThread tid t' = (s.setControl c).setThread tid t' := by simp [setThread_setControl]
  cases search with
  | found bblIndex =>
    have running' : d.reachedEnd = false := by simpa using ended
    simp only [BlockSearch.missing, searched, place, setThread_same, setThread_setThread]
    exact .entered going running awake outside bblIndex rest c replayed d left fresh running'
  | stopped =>
    simp only [BlockSearch.missing, searched, place]
    exact .missing going running awake outside .stopped rest c replayed rfl d left fresh ended
  | ended =>
    simp only [BlockSearch.missing, searched, place]
    exact .missing going running awake outside .ended rest c replayed rfl d left fresh ended

theorem fetchInstruction_result (s : SinucaTraceReader) (ret : InstructionPacket) (tid : Nat) :
    (s.fetchInstruction ret tid).1 = .ok ∨ (s.fetchInstruction ret tid).1 = .error := by
  unfold fetchInstruction
  dsimp only
  split
  · split
    · exact .inr rfl
    · exact .inl rfl
  · exact .inl rfl

theorem fetchInstruction_ne_nop (s : SinucaTraceReader) (ret : InstructionPacket) (tid : Nat) :
    (s.fetchInstruction ret tid).1 ≠ .nop := by
  rcases s.fetchInstruction_result ret tid with ok | error <;> simp [*]

theorem fetchInstruction_ne_end (s : SinucaTraceReader) (ret : InstructionPacket) (tid : Nat) :
    (s.fetchInstruction ret tid).1 ≠ .end_ := by
  rcases s.fetchInstruction_result ret tid with ok | error <;> simp [*]

/-- A call that returns `nop` or `end_` leaves the packet it was given alone. -/
theorem fetch_keeps_packet (s : SinucaTraceReader) (ret : InstructionPacket) (tid : Nat)
    (consistent : (s.threadDataVec tid).dynFile.Consistent)
    (none : (s.fetch ret tid).1 = .nop ∨ (s.fetch ret tid).1 = .end_) :
    (s.fetch ret tid).2.1 = ret := by
  have delivery : ∀ s' : SinucaTraceReader, (s'.fetchInstruction ret tid).1 = .nop ∨
      (s'.fetchInstruction ret tid).1 = .end_ → (s'.fetchInstruction ret tid).2.1 = ret := by
    rintro s' (nop | ended)
    · exact absurd nop (s'.fetchInstruction_ne_nop ret tid)
    · exact absurd ended (s'.fetchInstruction_ne_end ret tid)
  have cases := s.fetch_cases ret tid consistent
  generalize s.fetch ret tid = result at cases none ⊢
  cases cases with
  | executionEnded => rfl
  | idle => rfl
  | inside => exact delivery s none
  | missing => rfl
  | entered => exact delivery _ none

/-- Only the end of the execution is answered with `end_`. -/
theorem hasExecutionEnded_of_end (s : SinucaTraceReader) (ret : InstructionPacket) (tid : Nat)
    (consistent : (s.threadDataVec tid).dynFile.Consistent)
    (ended : (s.fetch ret tid).1 = .end_) : s.hasExecutionEnded = true := by
  have cases := s.fetch_cases ret tid consistent
  generalize s.fetch ret tid = result at cases ended
  cases cases with
  | executionEnded finished => exact finished
  | idle => cases ended
  | inside => exact absurd ended (s.fetchInstruction_ne_end ret tid)
  | missing =>
    dsimp only at ended
    split at ended <;> cases ended
  | entered => exact absurd ended (fetchInstruction_ne_end _ ret tid)

end SinucaTraceReader

end Sinuca3.Source
