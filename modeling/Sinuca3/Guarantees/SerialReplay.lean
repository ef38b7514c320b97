import Sinuca3.Guarantees.TracedProgram

/-!
# Replay of a program of one thread

Without threads to wait for, every call of `Fetch` delivers an instruction until there is
none left; the call that finds the end of the file, or an abrupt end, delivers nothing, and
from then on the execution has ended.
-/
namespace Sinuca3.Guarantees
open Sinuca3.Source Lib

section Serial

variable {d : StaticDictionary}

/-- The records of a thread without events: blocks, and behind them maybe an abrupt end. -/
def Plain (records : List DynamicTraceRecord) : Prop :=
  ∀ front r back, records = front ++ r :: back → r.getRecordType = .threadEvent →
    r.getThreadEvent = .abruptEnd ∧ back = []

theorem plain_of_quiet {records : List DynamicTraceRecord}
    (quiet : ∀ r ∈ records, r.getRecordType ≠ .threadEvent) : Plain records := by
  intro front r back split event
  exact absurd event (quiet r (by rw [split]; simp))

/-- A reader of one thread that follows its trace. -/
structure Serial (trace : ThreadTrace d) (packets : List InstructionPacket)
    (s : SinucaTraceReader) : Prop where
  dictionary : Dictionary d s
  follows : Follows trace packets (s.threadDataVec 0)
  awake : s.isThreadAwake 0 = true
  abruptEnd : s.reachedAbruptEnd = true → remaining d (s.threadDataVec 0) = []
  sound : s.fetchFailed = false

/-- Once the execution has ended all is received. -/
theorem Serial.all_contents {trace : ThreadTrace d} {packets : List InstructionPacket}
    {s : SinucaTraceReader} (serial : Serial trace packets s)
    (ended : s.hasExecutionEnded = true) : packets.map contents = trace.instructions := by
  unfold SinucaTraceReader.hasExecutionEnded at ended
  split at ended
  · rename_i abrupt
    obtain ⟨rest, whole, length⟩ := serial.follows.contents
    rw [serial.abruptEnd abrupt] at length
    rwa [List.eq_nil_of_length_eq_zero length, List.append_nil] at whole
  · exact serial.follows.all_contents ended

/-- What a call returns, once it has been answered so many times. -/
inductive SerialFetch (trace : ThreadTrace d) (packets : List InstructionPacket)
    (s : SinucaTraceReader) (ret : InstructionPacket) :
    FetchResult × InstructionPacket × SinucaTraceReader → Prop where
  | delivers (p : InstructionPacket) (s' : SinucaTraceReader)
      (earlier : s.hasExecutionEnded = false)
      (running : s'.hasExecutionEnded = false)
      (after : Serial trace (packets ++ [p]) s') : SerialFetch trace packets s ret (.ok, p, s')
  | stops (s' : SinucaTraceReader)
      (done : remaining d (s.threadDataVec 0) = [])
      (running : s.hasExecutionEnded = false)
      (ended : s'.hasExecutionEnded = true)
      (after : Serial trace packets s') : SerialFetch trace packets s ret (.nop, ret, s')
  | afterEnd (ended : s.hasExecutionEnded = true) :
      SerialFetch trace packets s ret (.end_, ret, s)

/-- Every record of a trace that is no event is a block. -/
theorem block_of_quiet {trace : ThreadTrace d} {r : DynamicTraceRecord}
    (member : r ∈ trace.records) (quiet : r.getRecordType ≠ .threadEvent) :
    r.getRecordType = .basicBlockIdentifier := by
  rcases trace.inRange r member with ⟨block, _⟩ | event
  · exact block
  · exact absurd event quiet

/-- The search of such a thread finds the next block, or the end. -/
theorem replayEvents_plain {trace : ThreadTrace d} (plain : Plain trace.records)
    {pending : List DynamicTraceRecord} (early : pending <:+ trace.records) (tid : Nat)
    (c : ReplayControl) :
    (pending = [] ∧ replayEvents tid pending c = (.ended, [], c)) ∨
      (expansion d pending = [] ∧
        replayEvents tid pending c = (.stopped, [], { c with reachedAbruptEnd := true })) ∨
      ∃ bblIndex rest, replayEvents tid pending c = (.found bblIndex, rest, c) := by
  cases pending with
  | nil => exact .inl ⟨rfl, rfl⟩
  | cons r rest =>
    by_cases event : r.getRecordType = .threadEvent
    · obtain ⟨front, split⟩ := early
      obtain ⟨abrupt, rfl⟩ := plain front r rest split.symm event
      refine .inr (.inl ⟨?_, ?_⟩)
      · rw [expansion_cons, event]
        rfl
      · rw [replayEvents, event]
        dsimp only
        rw [abrupt]
        rfl
    · have block := block_of_quiet (early.subset (List.mem_cons_self ..)) event
      refine .inr (.inr ⟨r.getBasicBlockIdentifier, rest, ?_⟩)
      rw [replayEvents, block]

theorem going_iff {s : SinucaTraceReader} : s.hasExecutionEnded = false ↔
    s.reachedAbruptEnd = false ∧ (s.threadDataVec 0).dynFile.reachedEnd = false := by
  unfold SinucaTraceReader.hasExecutionEnded DynamicTraceReader.hasReachedEnd
  cases s.reachedAbruptEnd <;> simp

/-- A thread that is inside a block delivers its instruction. -/
theorem Serial.fetchInstruction {trace : ThreadTrace d} {packets : List InstructionPacket}
    {s s' : SinucaTraceReader} (earlier : s.hasExecutionEnded = false)
    (ret : InstructionPacket) (dictionary : Dictionary d s') (awake : s'.isThreadAwake 0 = true)
    (going : s'.reachedAbruptEnd = false) (sound : s'.fetchFailed = false)
    (follows : Follows trace packets (s'.threadDataVec 0))
    (inside : (s'.threadDataVec 0).isInsideBasicBlock = true)
    (running : (s'.threadDataVec 0).dynFile.reachedEnd = false) :
    SerialFetch trace packets s ret (s'.fetchInstruction ret 0) := by
  obtain ⟨p, t', fetched, follows'⟩ :=
    fetchInstruction_follows s' ret 0 dictionary trace packets follows inside
  have kept := s'.fetchInstruction_keepsRecords ret 0
  rw [fetched] at kept ⊢
  obtain ⟨t, same, records⟩ := kept
  dsimp only at same
  have own : t' = t := by
    have here := congrArg (fun s : SinucaTraceReader => s.threadDataVec 0) same
    simpa using here
  subst own
  refine .delivers p _ earlier (going_iff.mpr ⟨going, ?_⟩)
    ⟨⟨dictionary.sizes, dictionary.instructions⟩, ?_, awake, fun abrupt => ?_, sound⟩
  · rw [SinucaTraceReader.setThread_same, records]
    exact running
  · rw [SinucaTraceReader.setThread_same]
    exact follows'
  · change s'.reachedAbruptEnd = true at abrupt
    rw [going] at abrupt
    cases abrupt

theorem Serial.fetch {trace : ThreadTrace d} {packets : List InstructionPacket}
    {s : SinucaTraceReader} (before : Serial trace packets s) (plain : Plain trace.records)
    (ret : InstructionPacket) : SerialFetch trace packets s ret (s.fetch ret 0) := by
  have searched := replayEvents_plain plain before.follows.pending 0 s.toReplayControl
  have cases := s.fetch_cases ret 0 before.follows.dynamic
  generalize s.fetch ret 0 = result at cases
  cases cases with
  | executionEnded finished => exact .afterEnd finished
  | idle going waiting =>
    rcases waiting with ended | asleep
    · rw [(going_iff.mp going).2] at ended
      cases ended
    · rw [before.awake] at asleep
      cases asleep
  | inside earlier running _ block =>
    exact Serial.fetchInstruction earlier ret before.dictionary before.awake
      (going_iff.mp earlier).1 before.sound before.follows block running
  | missing earlier running _ outside search rest c replayed none r left fresh ended =>
    have expanded := replayEvents_expansion (d := d) _ _ _ _ _ _ replayed
    have follows := before.follows.missed outside expanded none left fresh ended
    rcases searched with ⟨empty, missed⟩ | ⟨empty, missed⟩ | ⟨bblIndex, rest', found⟩
    · rw [missed] at replayed
      cases replayed
      have done : remaining d (s.threadDataVec 0) = [] := by
        rw [remaining, if_neg (by simp [outside]), empty]
        rfl
      rw [if_neg (by simp [before.sound])]
      refine .stops _ done earlier ?_
        ⟨⟨before.dictionary.sizes, before.dictionary.instructions⟩, ?_, before.awake,
          fun abrupt => ?_, before.sound⟩
      · rw [← Bool.not_eq_false, going_iff, SinucaTraceReader.setThread_same]
        exact fun both => absurd (ended.mpr rfl) (Bool.eq_false_iff.mp both.2)
      · rw [SinucaTraceReader.setThread_same]
        exact follows
      · change s.reachedAbruptEnd = true at abrupt
        rw [(going_iff.mp earlier).1] at abrupt
        cases abrupt
    · rw [missed] at replayed
      cases replayed
      have done : remaining d (s.threadDataVec 0) = [] := by
        rw [remaining, if_neg (by simp [outside]), empty]
        rfl
      rw [if_neg (by simp [before.sound])]
      refine .stops _ done earlier ?_
        ⟨⟨before.dictionary.sizes, before.dictionary.instructions⟩, ?_, before.awake,
          fun _ => ?_, before.sound⟩
      · rw [← Bool.not_eq_false, going_iff]
        exact fun both => Bool.noConfusion both.1
      · rw [SinucaTraceReader.setThread_same]
        exact follows
      · rw [SinucaTraceReader.setThread_same, remaining]
        dsimp only
        rw [if_neg (by simp [outside]), left]
        rfl
    · rw [found] at replayed
      cases replayed
      cases none
  | entered earlier _ _ outside bblIndex rest c replayed r left fresh running =>
    have expanded := replayEvents_expansion (d := d) _ _ _ _ _ _ replayed
    have follows := before.follows.entered outside expanded left fresh running
    rcases searched with ⟨_, missed⟩ | ⟨_, missed⟩ | ⟨bblIndex', rest', found⟩
    · rw [missed] at replayed
      cases replayed
    · rw [missed] at replayed
      cases replayed
    · rw [found] at replayed
      cases replayed
      refine Serial.fetchInstruction earlier ret
        ⟨before.dictionary.sizes, before.dictionary.instructions⟩ before.awake
        (going_iff.mp earlier).1 before.sound ?_ ?_ ?_
      all_goals rw [SinucaTraceReader.setThread_same]
      · exact follows
      · exact running

/-- The log of a reader of one thread: an `ok` for every packet, and from the end of the
file on a `nop` and then nothing but `end_`. -/
structure SerialLog (trace : ThreadTrace d) (s : SinucaTraceReader) (log : List FetchReturn) :
    Prop where
  serial : Serial trace (received 0 log) s
  running : s.hasExecutionEnded = false →
    log.map FetchReturn.result = List.replicate (received 0 log).length .ok
  ended : s.hasExecutionEnded = true →
    ∃ n, log.map FetchReturn.result =
      List.replicate (received 0 log).length .ok ++ .nop :: List.replicate n .end_

theorem SerialLog.step {trace : ThreadTrace d} {s : SinucaTraceReader} {log : List FetchReturn}
    (before : SerialLog trace s log) (plain : Plain trace.records) (ret : InstructionPacket) :
    SerialLog trace (replayStep s ⟨ret, 0⟩).1 (log ++ (replayStep s ⟨ret, 0⟩).2) := by
  have fetched := before.serial.fetch plain ret
  simp only [replayStep]
  generalize s.fetch ret 0 = result at fetched
  cases fetched with
  | delivers p s' earlier running after =>
    have more : received 0 (log ++ [⟨0, .ok, p⟩]) = received 0 log ++ [p] := by
      rw [received_append, if_pos ⟨rfl, rfl⟩]
    refine ⟨by rwa [more], fun _ => ?_, fun ended => ?_⟩
    · rw [more, List.map_append, before.running earlier, List.length_append, List.length_singleton,
        List.replicate_succ']
      rfl
    · rw [running] at ended
      cases ended
  | stops s' done running ended after =>
    have same : received 0 (log ++ [⟨0, .nop, ret⟩]) = received 0 log := by
      rw [received_append, if_neg (by simp), List.append_nil]
    refine ⟨by rwa [same], fun still => ?_, fun _ => ⟨0, ?_⟩⟩
    · rw [ended] at still
      cases still
    · rw [same, List.map_append, before.running running]
      rfl
  | afterEnd ended =>
    have same : received 0 (log ++ [⟨0, .end_, ret⟩]) = received 0 log := by
      rw [received_append, if_neg (by simp), List.append_nil]
    refine ⟨by rw [same]; exact before.serial, fun still => ?_, fun _ => ?_⟩
    · rw [ended] at still
      cases still
    · obtain ⟨n, results⟩ := before.ended ended
      refine ⟨n + 1, ?_⟩
      rw [same, List.map_append, results, List.append_assoc, List.replicate_succ']
      rfl

/-- What the first `count` calls return for a thread of so many instructions. -/
def serialResults (instructions count : Nat) : List FetchResult :=
  (List.replicate instructions FetchResult.ok ++
    FetchResult.nop :: List.replicate count FetchResult.end_).take count

/-- What a log says, once the thread has received its instructions one after the other. -/
theorem SerialLog.results {trace : ThreadTrace d} {s : SinucaTraceReader} {log : List FetchReturn}
    (logged : SerialLog trace s log) :
    log.map FetchReturn.result = serialResults trace.instructions.length log.length ∧
      (received 0 log).map contents = trace.instructions.take log.length := by
  obtain ⟨rest, whole, _⟩ := logged.serial.follows.contents
  have split := congrArg List.length whole
  rw [List.length_append, List.length_map] at split
  cases ended : s.hasExecutionEnded with
  | false =>
    have results := logged.running ended
    have count := congrArg List.length results
    rw [List.length_map, List.length_replicate] at count
    constructor
    · have enough : log.length ≤
          (List.replicate trace.instructions.length FetchResult.ok).length := by
        rw [List.length_replicate]
        omega
      rw [results, serialResults, List.take_append_of_le_length enough, List.take_replicate, count]
      congr 1
      omega
    · rw [← whole, count, ← List.length_map contents, List.take_left]
  | true =>
    have all := logged.serial.all_contents ended
    obtain ⟨n, results⟩ := logged.ended ended
    have count := congrArg List.length results
    have received := congrArg List.length all
    rw [List.length_map, List.length_append, List.length_replicate, List.length_cons,
      List.length_replicate] at count
    rw [List.length_map] at received
    constructor
    · rw [results, received, serialResults, List.take_append, List.length_replicate,
        List.take_replicate]
      have after : log.length - trace.instructions.length = n + 1 := by omega
      rw [after, List.take_succ_cons, List.take_replicate]
      congr 2
      · omega
      · congr 1
        omega
    · rw [all, List.take_of_length_le (by omega)]

end Serial

/-- The calls of a simulator with one core. -/
def serialCalls (rets : List InstructionPacket) : List FetchCall :=
  rets.map fun ret => ⟨ret, 0⟩

/-- The reader of a trace of one thread, after any number of calls. -/
theorem serialLog_replay {d : StaticDictionary} (trace : ThreadTrace d)
    (plain : Plain trace.records) (garbage : Nat → BitVec 64) (rets : List InstructionPacket) :
    SerialLog trace (replayTraces [trace] garbage (serialCalls rets)).1
      (replayTraces [trace] garbage (serialCalls rets)).2 := by
  induction rets using List.reverseRecOn with
  | nil =>
    have opened := replaying_openTrace [trace] garbage
    refine ⟨⟨opened.dictionary, opened.follows 0 Nat.one_pos, rfl, ?_, rfl⟩, fun _ => rfl, ?_⟩
    · intro abrupt
      cases abrupt
    · intro ended
      cases ended
  | append_singleton rets ret ih =>
    rw [serialCalls, List.map_append, List.map_singleton, replayTraces, replay,
      Machine.run_concat]
    exact ih.step plain ret

/-- The packets of a program of one thread: with every call the next instruction that the
thread executed, with its accesses, as long as there is one. The call after the last
instruction delivers nothing, and all later calls find that the execution has ended. -/
theorem serial_program_replays (p : ProgramRun) (fits : p.Fits) (alone : p.threadCount = 1)
    (quiet : ¬ Eventful p.inputs) (garbage : Nat → BitVec 64) :
    ∃ s, SinucaTraceReader.openDirectory p.tool.directory garbage = some s ∧
      ∀ rets : List InstructionPacket,
        let log := (Machine.run replayStep s (serialCalls rets)).2
        log.map FetchReturn.result = serialResults (p.executed 0).length rets.length ∧
          (received 0 log).map contents = (p.executed 0).take rets.length := by
  obtain ⟨traces, length, known, opened⟩ := exists_traces fits garbage
  refine ⟨_, opened, fun rets => ?_⟩
  rw [alone] at length
  obtain ⟨trace, rfl⟩ := List.length_eq_one_iff.mp length
  obtain ⟨instructions, silent⟩ := known 0 Nat.one_pos
  have agrees : AgreesInside (filledDict p.recordedBlocks).instruction p.dictionary :=
    agreesInside_filledDict _ _
  rw [replay_withDict agrees [trace] garbage (serialCalls rets) (by
    intro call member
    obtain ⟨ret, _, rfl⟩ := List.mem_map.mp member
    exact Nat.one_pos)]
  have logged := serialLog_replay trace (plain_of_quiet (silent quiet)) garbage rets
  have count : (replayTraces [trace] garbage (serialCalls rets)).2.length = rets.length :=
    (Machine.length_run replayStep (fun _ _ => rfl) _ _).trans (List.length_map _)
  have results := logged.results
  rw [count] at results
  rw [← instructions]
  exact results

theorem oneThread_delivers : ∃ s,
    SinucaTraceReader.openDirectory oneThread.tool.directory (fun _ => 0) = some s ∧
      (Machine.run replayStep s (serialCalls [default, default, default])).2.map
        FetchReturn.result = [.ok, .ok, .nop] := by
  obtain ⟨s, opened, delivered⟩ := serial_program_replays oneThread fits_oneThread rfl
    (by simp [Eventful, oneThread, oneThreadInputs]) fun _ => 0
  exact ⟨s, opened, (delivered [default, default, default]).1⟩

end Sinuca3.Guarantees
