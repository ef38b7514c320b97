import Sinuca3.Source.Tracer.BlockSearch

/-!
# Faithful replay

A reader just opened answers any interleaving of `Fetch` calls. Each thread
receives a prefix of the expansion of its basic blocks, and its memory-accessing
instructions receive the memory groups of its stream in order. The invariant
`Follows` ties what a thread has received to what its two readers still hold, in
an equation that leaves no room for a skipped or repeated instruction.
-/
namespace Sinuca3.Guarantees
open Sinuca3.Source Lib

/-- The packets a thread has received, oldest first. -/
def received (tid : Nat) (log : List FetchReturn) : List InstructionPacket :=
  log.filterMap fun r => if r.tid = tid ∧ r.result = .ok then some r.packet else none

/-- The basic blocks of a thread, in order. -/
def blockIds (records : List DynamicTraceRecord) : List Nat :=
  records.filterMap fun r =>
    match r.getRecordType with
    | .basicBlockIdentifier => some r.getBasicBlockIdentifier
    | _ => none

/-- The instructions a thread executes: its blocks, one after the other. -/
def expansion (d : StaticDictionary) (records : List DynamicTraceRecord) :
    List StaticInstructionInfo :=
  (blockIds records).flatMap d.block

def accessesMemory (i : StaticInstructionInfo) : Bool := i.instReadsMemory || i.instWritesMemory

/-- What a packet says about memory: its loads and its stores. -/
abbrev MemoryAccesses := List (BitVec 64 × BitVec 32) × List (BitVec 64 × BitVec 32)

def packetAccesses (p : InstructionPacket) : MemoryAccesses :=
  (p.dynamicInfo.loads, p.dynamicInfo.stores)

def groupAccesses (g : MemoryGroup) : MemoryAccesses := (g.loads, g.stores)

/-- A record the reader understands: a block of the dictionary or a thread event. -/
def InRange (d : StaticDictionary) (r : DynamicTraceRecord) : Prop :=
  (r.getRecordType = .basicBlockIdentifier ∧ r.getBasicBlockIdentifier < d.blocks.length) ∨
    r.getRecordType = .threadEvent

/-- The trace of one thread: its records, and one memory group for each
memory-accessing instruction they execute. -/
structure ThreadTrace (d : StaticDictionary) where
  records : List DynamicTraceRecord
  groups : List MemoryGroup
  inRange : ∀ r ∈ records, InRange d r
  onePerAccess : groups.length = ((expansion d records).filter accessesMemory).length

def ThreadTrace.files {d : StaticDictionary} (t : ThreadTrace d) : ThreadFiles :=
  ⟨t.records, t.groups.flatMap MemoryGroup.records⟩

section Replay

variable {d : StaticDictionary}

/-- The replay of well-formed traces. -/
def replayTraces (threads : List (ThreadTrace d)) (garbage : Nat → BitVec 64)
    (calls : List FetchCall) : SinucaTraceReader × List FetchReturn :=
  replay d (threads.map ThreadTrace.files) garbage calls

/-- Instructions a thread has not received: the rest of its block, then what its
pending records expand to. -/
def remaining (d : StaticDictionary) (t : ThreadData) : List StaticInstructionInfo :=
  (if t.isInsideBasicBlock then (d.block t.currentBasicBlock).drop t.currentInst else []) ++
    expansion d t.dynFile.pending

/-- A reader whose dictionary is `d`. -/
structure Dictionary (d : StaticDictionary) (s : SinucaTraceReader) : Prop where
  sizes : s.basicBlockSizeArr = fun bblIndex => ((d.block bblIndex).length : Int)
  instructions : s.instructionDict = fun bblIndex inst => (d.block bblIndex).getD inst default

/-- The data of a thread that has received `packets` of `trace`. -/
structure Follows (trace : ThreadTrace d) (packets : List InstructionPacket) (t : ThreadData) :
    Prop where
  dynamic : t.dynFile.Consistent
  memory : t.memFile.Consistent
  memoryRunning : t.memFile.reachedEnd = false
  pending : t.dynFile.pending <:+ trace.records
  inside : t.isInsideBasicBlock = true → t.currentInst < (d.block t.currentBasicBlock).length
  ended : t.dynFile.reachedEnd = true → t.isInsideBasicBlock = false ∧ t.dynFile.pending = []
  instructions : packets.map (·.staticInfo) ++ remaining d t = expansion d trace.records
  groups : ∃ left : List MemoryGroup, t.memFile.pending = left.flatMap MemoryGroup.records ∧
    (packets.filter fun p => accessesMemory p.staticInfo).map packetAccesses ++
      left.map groupAccesses = trace.groups.map groupAccesses
  plain : ∀ p ∈ packets, accessesMemory p.staticInfo = false → packetAccesses p = ([], [])

/-- A thread that has seen the end of its file has received all its instructions. -/
theorem Follows.complete {trace : ThreadTrace d} {packets : List InstructionPacket} {t : ThreadData}
    (follows : Follows trace packets t) (ended : t.dynFile.reachedEnd = true) :
    packets.map (·.staticInfo) = expansion d trace.records := by
  obtain ⟨outside, done⟩ := follows.ended ended
  have instructions := follows.instructions
  rw [remaining, if_neg (by simp [outside]), done, List.nil_append] at instructions
  simpa [expansion, blockIds] using instructions

theorem received_append (tid : Nat) (log : List FetchReturn) (r : FetchReturn) :
    received tid (log ++ [r]) =
      received tid log ++ if r.tid = tid ∧ r.result = .ok then [r.packet] else [] := by
  simp only [received, List.filterMap_append, List.filterMap_cons, List.filterMap_nil]
  split <;> simp_all

theorem expansion_cons (r : DynamicTraceRecord) (rest : List DynamicTraceRecord) :
    expansion d (r :: rest) =
      (if r.getRecordType = .basicBlockIdentifier then d.block r.getBasicBlockIdentifier else []) ++
        expansion d rest := by
  cases kind : r.getRecordType <;> simp [expansion, blockIds, kind]

/-- What a search finds, and what it passes over, of the expansion. -/
structure SearchExpansion (d : StaticDictionary) (pending rest : List DynamicTraceRecord)
    (search : BlockSearch) : Prop where
  suffix : rest <:+ pending
  found : ∀ bblIndex, search = .found bblIndex →
    expansion d pending = d.block bblIndex ++ expansion d rest ∧
      ∃ r ∈ pending, r.getRecordType = .basicBlockIdentifier ∧
        r.getBasicBlockIdentifier = bblIndex
  missed : search.missing = true → expansion d pending = expansion d rest
  ended : search = .ended → rest = []

/-- Events contribute no instruction, and only a block stops a search that found
something. -/
theorem replayEvents_expansion (tid : Nat) (pending : List DynamicTraceRecord)
    (c : ReplayControl) (search : BlockSearch) (rest : List DynamicTraceRecord)
    (c' : ReplayControl) (replayed : replayEvents tid pending c = (search, rest, c')) :
    SearchExpansion d pending rest search := by
  induction pending generalizing c with
  | nil =>
    cases replayed
    exact ⟨List.suffix_refl [], by simp, by simp, by simp⟩
  | cons r pending ih =>
    have tail : pending <:+ r :: pending := List.suffix_cons r pending
    have first := expansion_cons (d := d) r pending
    unfold replayEvents at replayed
    split at replayed
    · rename_i event
      rw [event, if_neg (by simp), List.nil_append] at first
      split at replayed
      · cases replayed
        exact ⟨tail, by simp, fun _ => first, by simp⟩
      · have later := ih _ replayed
        refine ⟨later.suffix.trans tail, fun bblIndex same => ?_, fun missed => ?_, later.ended⟩
        · obtain ⟨split, r', member, block⟩ := later.found bblIndex same
          exact ⟨first.trans split, r', List.mem_cons_of_mem r member, block⟩
        · exact first.trans (later.missed missed)
    · rename_i block
      cases replayed
      rw [if_pos block] at first
      refine ⟨tail, fun bblIndex same => ?_, by simp [BlockSearch.missing], by simp⟩
      cases same
      exact ⟨first, r, List.mem_cons_self .., block, rfl⟩
    · rename_i unknown
      cases replayed
      rw [unknown, if_neg (by simp), List.nil_append] at first
      exact ⟨tail, by simp, fun _ => first, by simp⟩

/-- A thread inside a block has its current instruction first among the remaining. -/
theorem remaining_inside (t : ThreadData) (inside : t.isInsideBasicBlock = true)
    (bound : t.currentInst < (d.block t.currentBasicBlock).length) :
    remaining d t = (d.block t.currentBasicBlock).getD t.currentInst default ::
      ((d.block t.currentBasicBlock).drop (t.currentInst + 1) ++ expansion d t.dynFile.pending) := by
  rw [remaining, if_pos inside, List.drop_eq_getElem_cons bound, List.cons_append]
  simp [bound]

/-- Stepping past an instruction leaves the rest of its block, if there is any. -/
theorem countInstruction_eq (s : SinucaTraceReader) (tid : Nat) (dictionary : Dictionary d s)
    (inside : (s.threadDataVec tid).isInsideBasicBlock = true) :
    ∃ t, s.countInstruction tid = s.setThread tid t ∧
      t.dynFile = (s.threadDataVec tid).dynFile ∧ t.memFile = (s.threadDataVec tid).memFile ∧
      (t.isInsideBasicBlock = true → t.currentInst < (d.block t.currentBasicBlock).length) ∧
      remaining d t =
        (d.block (s.threadDataVec tid).currentBasicBlock).drop
          ((s.threadDataVec tid).currentInst + 1) ++
        expansion d (s.threadDataVec tid).dynFile.pending := by
  unfold SinucaTraceReader.countInstruction
  simp only [dictionary.sizes]
  split
  · rename_i last
    refine ⟨_, rfl, rfl, rfl, by simp, ?_⟩
    simp only [remaining, Bool.false_eq_true, if_false]
    rw [List.drop_eq_nil_of_le (by omega)]
  · rename_i more
    refine ⟨_, rfl, rfl, rfl, fun _ => by simp only; omega, ?_⟩
    simp only [remaining, inside, if_true]

/-- The groups left are as many as the memory-accessing instructions remaining. -/
theorem groups_left (trace : ThreadTrace d) (packets : List InstructionPacket)
    (rest : List StaticInstructionInfo) (left : List MemoryGroup)
    (instructions : packets.map (·.staticInfo) ++ rest = expansion d trace.records)
    (paired : (packets.filter fun p => accessesMemory p.staticInfo).map packetAccesses ++
      left.map groupAccesses = trace.groups.map groupAccesses) :
    left.length = (rest.filter accessesMemory).length := by
  have whole := trace.onePerAccess
  have lengths := congrArg List.length paired
  rw [← instructions, List.filter_append, List.length_append, List.filter_map,
    List.length_map] at whole
  simp only [List.length_append, List.length_map] at lengths
  have same : (accessesMemory ∘ fun p : InstructionPacket => p.staticInfo) =
      fun p => accessesMemory p.staticInfo := rfl
  rw [same] at whole
  omega

/-- The tail of `Fetch` delivers the current instruction, with the thread's next
memory group when it accesses memory. -/
theorem fetchInstruction_follows (s : SinucaTraceReader) (ret : InstructionPacket) (tid : Nat)
    (dictionary : Dictionary d s) (trace : ThreadTrace d) (packets : List InstructionPacket)
    (before : Follows trace packets (s.threadDataVec tid))
    (inside : (s.threadDataVec tid).isInsideBasicBlock = true) :
    ∃ p t, s.fetchInstruction ret tid = (.ok, p, s.setThread tid t) ∧
      Follows trace (packets ++ [p]) t := by
  have bound := before.inside inside
  have first := remaining_inside _ inside bound
  have instructions := before.instructions
  rw [first] at instructions
  have running : (s.threadDataVec tid).dynFile.reachedEnd = false := by
    by_contra ended
    have := before.ended (by simpa using ended)
    simp [inside] at this
  obtain ⟨left, stream, paired⟩ := before.groups
  unfold SinucaTraceReader.fetchInstruction
  simp only [dictionary.instructions]
  generalize instruction : (d.block (s.threadDataVec tid).currentBasicBlock).getD
    (s.threadDataVec tid).currentInst default = i at instructions ⊢
  split
  · rename_i accesses
    have accesses : accessesMemory i = true := accesses
    have count := groups_left trace packets _ left before.instructions paired
    rw [first, instruction, List.filter_cons_of_pos accesses, List.length_cons] at count
    obtain ⟨g, left', rfl⟩ := List.exists_cons_of_length_pos (by omega : 0 < left.length)
    obtain ⟨p, m, read, stream', fresh, running', static, loads, stores, _⟩ :=
      MemoryTraceReader.readMemoryOperations_group (s.threadDataVec tid).memFile
        { SinucaTraceReader.resetInstructionPacket ret with staticInfo := i } g
        (left'.flatMap MemoryGroup.records) before.memory before.memoryRunning
        (by rw [stream, List.flatMap_cons]) rfl rfl
    have fetched : s.fetchMemoryData
        { SinucaTraceReader.resetInstructionPacket ret with staticInfo := i } tid =
        (false, p, s.setThread tid { s.threadDataVec tid with memFile := m }) := by
      simp [SinucaTraceReader.fetchMemoryData, MemoryTraceReader.hasReachedEnd,
        before.memoryRunning, read]
    rw [fetched]
    obtain ⟨t, counted, sameDynamic, sameMemory, inside', remaining'⟩ :=
      countInstruction_eq (d := d)
        (s.setThread tid { s.threadDataVec tid with memFile := m }) tid
        ⟨dictionary.sizes, dictionary.instructions⟩ (by simpa using inside)
    simp only [SinucaTraceReader.setThread_same] at sameDynamic sameMemory remaining'
    refine ⟨p, t, by simp [counted], ?_⟩
    refine ⟨sameDynamic ▸ before.dynamic, sameMemory ▸ fresh, sameMemory ▸ running',
      sameDynamic ▸ before.pending, inside', ?_, ?_, ⟨left', sameMemory ▸ stream', ?_⟩, ?_⟩
    · rw [sameDynamic, running]
      simp
    · rw [remaining', List.map_append, List.append_assoc]
      simpa [static] using instructions
    · have accesses' : accessesMemory p.staticInfo = true := by rw [static]; exact accesses
      rw [List.filter_append, List.map_append, List.append_assoc, ← paired]
      simp [accesses', packetAccesses, groupAccesses, loads, stores]
    · intro q member plain
      rcases List.mem_append.mp member with old | new
      · exact before.plain q old plain
      · cases List.mem_singleton.mp new
        rw [static] at plain
        exact absurd accesses (by simpa [accessesMemory] using plain)
  · rename_i plain
    obtain ⟨t, counted, sameDynamic, sameMemory, inside', remaining'⟩ :=
      countInstruction_eq s tid dictionary inside
    refine ⟨_, t, by rw [counted], ?_⟩
    refine ⟨sameDynamic ▸ before.dynamic, sameMemory ▸ before.memory,
      sameMemory ▸ before.memoryRunning, sameDynamic ▸ before.pending, inside', ?_, ?_,
      ⟨left, sameMemory ▸ stream, ?_⟩, ?_⟩
    · rw [sameDynamic, running]
      simp
    · rw [remaining', List.map_append, List.append_assoc]
      simpa using instructions
    · have plain' : accessesMemory i = false := by simpa [accessesMemory] using plain
      rw [List.filter_append, ← paired]
      simp [plain']
    · intro q member _
      rcases List.mem_append.mp member with old | new
      · exact before.plain q old (by assumption)
      · cases List.mem_singleton.mp new
        simp only [packetAccesses, SinucaTraceReader.resetInstructionPacket]
        rw [DynamicInstructionInfo.loads_of_none rfl, DynamicInstructionInfo.stores_of_none rfl]

/-- A search that finds no block passes over events only. -/
theorem Follows.missed {trace : ThreadTrace d} {packets : List InstructionPacket} {t : ThreadData}
    (before : Follows trace packets t) (outside : t.isInsideBasicBlock = false)
    {search : BlockSearch} {rest : List DynamicTraceRecord}
    (expanded : SearchExpansion d t.dynFile.pending rest search) (none : search.missing = true)
    {r : DynamicTraceReader} (left : r.pending = rest) (fresh : r.Consistent)
    (ended : r.reachedEnd = true ↔ search = .ended) :
    Follows trace packets { t with dynFile := r, currentInst := 0 } where
  dynamic := fresh
  memory := before.memory
  memoryRunning := before.memoryRunning
  pending := left ▸ expanded.suffix.trans before.pending
  inside := by simp [outside]
  ended := fun finished => ⟨outside, left ▸ expanded.ended (ended.mp finished)⟩
  instructions := by
    have instructions := before.instructions
    simp only [remaining, outside, Bool.false_eq_true, if_false, List.nil_append, left]
      at instructions ⊢
    rw [← expanded.missed none, instructions]
  groups := before.groups
  plain := before.plain

/-- A search that finds a block moves the thread to its first instruction. -/
theorem Follows.entered {trace : ThreadTrace d} {packets : List InstructionPacket} {t : ThreadData}
    (before : Follows trace packets t) (outside : t.isInsideBasicBlock = false)
    {bblIndex : Nat} {rest : List DynamicTraceRecord}
    (expanded : SearchExpansion d t.dynFile.pending rest (.found bblIndex))
    {r : DynamicTraceReader} (left : r.pending = rest) (fresh : r.Consistent)
    (running : r.reachedEnd = false) :
    Follows trace packets { t with
      dynFile := r, currentBasicBlock := bblIndex, currentInst := 0,
      isInsideBasicBlock := true } where
  dynamic := fresh
  memory := before.memory
  memoryRunning := before.memoryRunning
  pending := left ▸ expanded.suffix.trans before.pending
  inside := by
    intro _
    obtain ⟨_, record, member, block, rfl⟩ := expanded.found bblIndex rfl
    have bound : record.getBasicBlockIdentifier < d.blocks.length := by
      rcases trace.inRange record (before.pending.subset member) with ⟨_, bound⟩ | event
      · exact bound
      · simp [block] at event
    simp only [StaticDictionary.block, List.getD_eq_getElem?_getD, bound, getElem?_pos,
      Option.getD_some]
    exact List.length_pos_iff.mpr (d.nonempty _ (List.getElem_mem bound))
  ended := by simp [running]
  instructions := by
    have instructions := before.instructions
    simp only [remaining, outside, Bool.false_eq_true, if_false, List.nil_append, left, if_true,
      List.drop_zero] at instructions ⊢
    rw [← (expanded.found bblIndex rfl).1, instructions]
  groups := before.groups
  plain := before.plain

def IsAbruptEnd (r : DynamicTraceRecord) : Prop :=
  r.getRecordType = .threadEvent ∧ r.getThreadEvent = .abruptEnd

theorem handleEvent_abruptEnd (c : ReplayControl) (tid : Nat) (e : ThreadEventType)
    (marked : (c.handleEvent tid e).1.reachedAbruptEnd = true) :
    c.reachedAbruptEnd = true ∨ e = .abruptEnd := by
  cases e with
  | abruptEnd => exact .inr rfl
  | criticalStart => exact .inl marked
  | unknown => exact .inl marked
  | criticalEnd =>
    simp only [ReplayControl.handleEvent] at marked
    split at marked
    · exact .inl marked
    · split at marked <;> exact .inl marked
  | barrierSync =>
    simp only [ReplayControl.handleEvent] at marked
    split at marked <;> exact .inl marked

/-- Only an abrupt end event marks the abrupt end. -/
theorem replayEvents_abruptEnd (tid : Nat) (pending : List DynamicTraceRecord)
    (c : ReplayControl) (search : BlockSearch) (rest : List DynamicTraceRecord)
    (c' : ReplayControl) (replayed : replayEvents tid pending c = (search, rest, c'))
    (marked : c'.reachedAbruptEnd = true) :
    c.reachedAbruptEnd = true ∨ ∃ r ∈ pending, IsAbruptEnd r := by
  induction pending generalizing c with
  | nil =>
    cases replayed
    exact .inl marked
  | cons r pending ih =>
    have found : r.getRecordType = .threadEvent → r.getThreadEvent = .abruptEnd →
        c.reachedAbruptEnd = true ∨ ∃ r' ∈ r :: pending, IsAbruptEnd r' :=
      fun kind code => .inr ⟨r, List.mem_cons_self .., kind, code⟩
    have step := replayEvents_cons tid r pending c
    generalize replayEvents tid (r :: pending) c = result at step replayed
    cases step with
    | block =>
      cases replayed
      exact .inl marked
    | unknown =>
      cases replayed
      exact .inl marked
    | stops kind e code c' handled =>
      cases replayed
      have here := handleEvent_abruptEnd c tid e
      rw [handled] at here
      exact (here marked).elim .inl fun abrupt => found kind (code.trans abrupt)
    | goesOn kind e code c' handled =>
      have here := handleEvent_abruptEnd c tid e
      rw [handled] at here
      rcases ih c' replayed with before | ⟨r', member, abrupt⟩
      · exact (here before).elim .inl fun abrupt => found kind (code.trans abrupt)
      · exact .inr ⟨r', List.mem_cons_of_mem r member, abrupt⟩

/-- A call moves one thread on, delivers exactly when it returns `ok`, and ends
only a program that is over. -/
theorem fetch_follows (s : SinucaTraceReader) (ret : InstructionPacket) (tid : Nat)
    (dictionary : Dictionary d s) (trace : ThreadTrace d) (packets : List InstructionPacket)
    (before : Follows trace packets (s.threadDataVec tid)) :
    ∃ result p c t, s.fetch ret tid = (result, p, (s.setControl c).setThread tid t) ∧
      Follows trace (packets ++ if result = .ok then [p] else []) t ∧
      (c.reachedAbruptEnd = true → s.reachedAbruptEnd = true ∨ ∃ r ∈ trace.records, IsAbruptEnd r) ∧
      (result = .end_ → s.hasExecutionEnded = true) := by
  have same : s = (s.setControl s.toReplayControl).setThread tid (s.threadDataVec tid) := by
    rw [SinucaTraceReader.setControl_same, SinucaTraceReader.setThread_self]
  have delivered : ∀ c (t : ThreadData), Follows trace packets t → t.isInsideBasicBlock = true →
      ∃ p t', ((s.setControl c).setThread tid t).fetchInstruction ret tid =
        (.ok, p, (s.setControl c).setThread tid t') ∧ Follows trace (packets ++ [p]) t' := by
    intro c t follows inside
    obtain ⟨p, t', fetched, follows'⟩ := fetchInstruction_follows
      ((s.setControl c).setThread tid t) ret tid ⟨dictionary.sizes, dictionary.instructions⟩ trace
      packets (by simpa using follows) (by simpa using inside)
    exact ⟨p, t', by simpa using fetched, follows'⟩
  have cases := s.fetch_cases ret tid before.dynamic
  generalize fetched : s.fetch ret tid = result at cases ⊢
  cases cases with
  | executionEnded finished =>
    exact ⟨_, _, _, _, by rw [← same], by simpa using before, .inl, fun _ => finished⟩
  | idle =>
    exact ⟨_, _, _, _, by rw [← same], by simpa using before, .inl, by simp⟩
  | inside _ _ _ block =>
    obtain ⟨p, t, delivery, follows⟩ := delivered s.toReplayControl _ before block
    rw [← same] at delivery
    exact ⟨_, _, _, _, delivery, by simpa using follows, .inl, by simp⟩
  | missing _ _ _ outside search rest c replayed none r left fresh ended =>
    have expanded := replayEvents_expansion (d := d) _ _ _ _ _ _ replayed
    have follows := before.missed outside expanded none left fresh ended
    have silent : (if c.fetchFailed = true then FetchResult.error else .nop) ≠ .ok := by
      split <;> simp
    refine ⟨_, _, _, _, rfl, ?_, fun marked => ?_, ?_⟩
    · rw [if_neg silent, List.append_nil]
      exact follows
    · rcases replayEvents_abruptEnd _ _ _ _ _ _ replayed marked with old | ⟨r', member, abrupt⟩
      · exact .inl old
      · exact .inr ⟨r', before.pending.subset member, abrupt⟩
    · intro finished
      split at finished <;> cases finished
  | entered _ _ _ outside bblIndex rest c replayed r left fresh running =>
    have expanded := replayEvents_expansion (d := d) _ _ _ _ _ _ replayed
    obtain ⟨p, t, delivery, follows⟩ := delivered c _
      (before.entered outside expanded left fresh running) rfl
    refine ⟨_, _, _, _, delivery, by simpa using follows, fun marked => ?_, by simp⟩
    rcases replayEvents_abruptEnd _ _ _ _ _ _ replayed marked with old | ⟨r', member, abrupt⟩
    · exact .inl old
    · exact .inr ⟨r', before.pending.subset member, abrupt⟩

/-- The invariant of a replay: every thread follows its trace, and whoever was
told that the execution ended was told so after an abrupt end event, or after
thread 0 had received all its instructions. -/
structure Replaying (threads : List (ThreadTrace d)) (s : SinucaTraceReader)
    (log : List FetchReturn) : Prop where
  dictionary : Dictionary d s
  follows : ∀ tid (present : tid < threads.length),
    Follows threads[tid] (received tid log) (s.threadDataVec tid)
  abruptEnd : s.reachedAbruptEnd = true → ∃ t ∈ threads, ∃ r ∈ t.records, IsAbruptEnd r
  ends : Machine.Explained (fun before r => r.result = .end_ → ∀ present : 0 < threads.length,
    (∃ t ∈ threads, ∃ r ∈ t.records, IsAbruptEnd r) ∨
      (received 0 before).map (·.staticInfo) = expansion d threads[0].records) log

theorem replaying_openTrace (threads : List (ThreadTrace d)) (garbage : Nat → BitVec 64) :
    Replaying threads (.openTrace d (threads.map ThreadTrace.files) garbage) [] := by
  refine ⟨⟨rfl, rfl⟩, fun tid present => ?_, by simp [SinucaTraceReader.openTrace],
    Machine.explained_nil _⟩
  have files : (threads.map ThreadTrace.files).getD tid default = threads[tid].files := by
    simp [present]
  simp only [SinucaTraceReader.openTrace, files, ThreadTrace.files]
  exact {
    dynamic := DynamicTraceReader.consistent_openFile _
    memory := MemoryTraceReader.consistent_openFile _
    memoryRunning := rfl
    pending := List.suffix_refl _
    inside := by simp
    ended := by simp
    instructions := by simp [received, remaining]
    groups := ⟨threads[tid].groups, by simp, by simp [received]⟩
    plain := by simp [received] }

theorem step_preserves_replaying (threads : List (ThreadTrace d)) (s : SinucaTraceReader)
    (log : List FetchReturn) (before : Replaying threads s log) (call : FetchCall)
    (inRange : call.tid < threads.length) :
    Replaying threads (replayStep s call).1 (log ++ (replayStep s call).2) := by
  obtain ⟨result, p, c, t, fetched, follows, abruptEnd, finished⟩ :=
    fetch_follows s call.ret call.tid before.dictionary threads[call.tid] _
      (before.follows call.tid inRange)
  have member : threads[call.tid] ∈ threads := List.getElem_mem inRange
  simp only [replayStep, fetched]
  refine ⟨⟨before.dictionary.sizes, before.dictionary.instructions⟩, fun tid present => ?_,
    fun marked => ?_, before.ends.concat fun ended present => ?_⟩
  · rw [received_append]
    by_cases here : call.tid = tid
    · subst here
      simpa using follows
    · simpa [here, Ne.symm here] using before.follows tid present
  · rcases abruptEnd marked with old | ⟨r, found, abrupt⟩
    · exact before.abruptEnd old
    · exact ⟨_, member, r, found, abrupt⟩
  · have finished := finished ended
    unfold SinucaTraceReader.hasExecutionEnded at finished
    split at finished
    · rename_i marked
      exact .inl (before.abruptEnd marked)
    · exact .inr ((before.follows 0 present).complete finished)

theorem replay_replaying (threads : List (ThreadTrace d)) (garbage : Nat → BitVec 64)
    (calls : List FetchCall) (inRange : ∀ call ∈ calls, call.tid < threads.length) :
    Replaying threads (replayTraces threads garbage calls).1
      (replayTraces threads garbage calls).2 := by
  refine Machine.run_induction_of_meets replayStep
    (fun _ call => call.tid < threads.length)
    (P := fun s _ log => Replaying threads s log) (replaying_openTrace threads garbage)
    (fun s _ log call before here => step_preserves_replaying threads s log before call here)
    calls (Machine.meets_of_forall replayStep _ calls inRange)

/-- For every dictionary, every number of threads, every trace of each and every
interleaving of calls on a reader just opened, each thread has received a prefix
of its expansion, and what remains is exactly the rest, so a call that returned
anything but `ok` consumed no instruction. Its memory-accessing instructions came
with its memory groups in order, the others with no access. A single thread
without events has received everything before the first `end_`. -/
theorem replay_faithful (threads : List (ThreadTrace d)) (garbage : Nat → BitVec 64)
    (calls : List FetchCall) (inRange : ∀ call ∈ calls, call.tid < threads.length) :
    (∀ tid (present : tid < threads.length),
      let packets := received tid (replayTraces threads garbage calls).2
      packets.map (·.staticInfo) <+: expansion d threads[tid].records ∧
      packets.map (·.staticInfo) ++
          remaining d ((replayTraces threads garbage calls).1.threadDataVec tid) =
        expansion d threads[tid].records ∧
      (packets.filter fun p => accessesMemory p.staticInfo).map packetAccesses <+:
        threads[tid].groups.map groupAccesses ∧
      ∀ p ∈ packets, accessesMemory p.staticInfo = false → packetAccesses p = ([], [])) ∧
    (∀ trace, threads = [trace] → (∀ r ∈ trace.records, r.getRecordType ≠ .threadEvent) →
      ∀ before r after, (replayTraces threads garbage calls).2 = before ++ r :: after →
        r.result = .end_ →
        (received 0 before).map (·.staticInfo) = expansion d trace.records) := by
  have replaying := replay_replaying threads garbage calls inRange
  refine ⟨fun tid present => ?_, fun trace single noEvents before r after split ended => ?_⟩
  · have follows := replaying.follows tid present
    obtain ⟨left, _, paired⟩ := follows.groups
    exact ⟨⟨_, follows.instructions⟩, follows.instructions, ⟨_, paired⟩, follows.plain⟩
  · subst single
    rcases replaying.ends before r after split ended (by simp) with
      ⟨t, only, r', found, abrupt⟩ | all
    · cases List.mem_singleton.mp only
      exact absurd abrupt.1 (noEvents r' found)
    · exact all

end Replay

/-- A block of an instruction that loads and one that does not. -/
def loadThenPlain : StaticDictionary where
  blocks := [[{ instReadsMemory := true }, {}]]
  nonempty := by simp
  size_lt := by simp

/-- A group of one load. -/
def oneLoad : MemoryGroup where
  header := { address := 1 }
  operations := [{ address := 64, size := 8, recordType := 1 }]
  is_header := rfl
  count := rfl
  kinds := by decide
  loads_le := by decide
  stores_le := by decide

/-- The block, executed once. -/
def loadThenPlainTrace : ThreadTrace loadThenPlain where
  records := [.basicBlock 0]
  groups := [oneLoad]
  inRange := by
    intro r member
    cases List.mem_singleton.mp member
    exact .inl ⟨rfl, by decide⟩
  onePerAccess := rfl

theorem replay_faithful_loadThenPlain :
    (received 0 (replayTraces [loadThenPlainTrace] (fun _ => 0) [⟨{}, 0⟩, ⟨{}, 0⟩, ⟨{}, 0⟩]).2).map
      (·.staticInfo) <+: expansion loadThenPlain loadThenPlainTrace.records :=
  ((replay_faithful [loadThenPlainTrace] (fun _ => 0) [⟨{}, 0⟩, ⟨{}, 0⟩, ⟨{}, 0⟩]
    (by simp)).1 0 (by simp)).1

end Sinuca3.Guarantees
