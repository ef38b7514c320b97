import Sinuca3.Guarantees.StaticRoundTrip
import Sinuca3.Source.TraceGenerator.Instrumentation

/-!
# Instrumented blocks and the static trace

What the instrumentation gives the writer of the static trace: each block once, under the
index that the calls inserted into it pass on, whenever threads start in between.
-/
namespace Sinuca3.Guarantees
open Sinuca3.Source Lib StaticTraceWriter

/-- The calls that add a thread. -/
def countsThread : Call → Bool
  | .incThreadCount => true
  | _ => false

/-- Calls of a tracer for some blocks and so many threads, which leave the target alone. -/
structure TracedSession (blocks : List PlacedBlock) (threads : Nat) (calls : List Call) : Prop where
  session : Session blocks calls
  threads : calls.countP countsThread = threads
  target : ∀ target, .setTargetArch target ∉ calls

theorem TracedSession.append {blocks blocks' : List PlacedBlock} {threads threads' : Nat}
    {calls calls' : List Call} (first : TracedSession blocks threads calls)
    (second : TracedSession blocks' threads' calls') :
    TracedSession (blocks ++ blocks') (threads + threads') (calls ++ calls') where
  session := {
    adds := by
      rw [List.filter_append, first.session.adds, second.session.adds, List.flatMap_append]
    instructions := by
      rw [List.countP_append, first.session.instructions, second.session.instructions,
        List.map_append, List.sum_append]
    basicBlocks := by
      rw [List.countP_append, first.session.basicBlocks, second.session.basicBlocks,
        List.length_append] }
  threads := by rw [List.countP_append, first.threads, second.threads]
  target := by
    intro target member
    exact (List.mem_append.mp member).elim (first.target target) (second.target target)

theorem tracked_nil : TracedSession [] 0 [] := ⟨⟨rfl, rfl, rfl⟩, rfl, fun _ => List.not_mem_nil⟩

theorem tracked_thread : TracedSession [] 1 [.incThreadCount] :=
  ⟨⟨rfl, rfl, rfl⟩, rfl, fun target member => by simp at member⟩

/-- The instructions of a block as the static trace has them. -/
def recordedBlock (intrinsics : List IntrinsicInfo) (bbl : BBL) : List Instruction :=
  bbl.instructions.map (addedInstruction intrinsics)

/-- The block, with its size before its instructions. -/
def placedBlock (intrinsics : List IntrinsicInfo) (bbl : BBL)
    (small : bbl.instructions.length < 65536) : PlacedBlock where
  before := []
  after := recordedBlock intrinsics bbl
  nonempty := by simpa [recordedBlock] using bbl.nonempty
  size_lt := by simpa [recordedBlock] using small

/-- The calls for a block. -/
def blockCalls (intrinsics : List IntrinsicInfo) (bbl : BBL) : List Call :=
  .addBasicBlockSize (BitVec.ofNat 32 bbl.instructions.length) :: .incBasicBlockCount ::
    bbl.instructions.flatMap fun ins =>
      [.incStaticInstructionCount, .addInstruction (addedInstruction intrinsics ins)]

theorem instrumentBbl_calls (intrinsics : List IntrinsicInfo) (w : StaticTraceWriter) (bbl : BBL) :
    (instrumentBbl intrinsics w bbl).1 =
      (blockCalls intrinsics bbl).foldl StaticTraceWriter.call w := by
  have loop : ∀ (instructions : List INS) (w : StaticTraceWriter),
      instructions.foldl (instrumentIns intrinsics) w =
        (instructions.flatMap fun ins => [Call.incStaticInstructionCount,
          .addInstruction (addedInstruction intrinsics ins)]).foldl StaticTraceWriter.call w := by
    intro instructions
    induction instructions with
    | nil => exact fun _ => rfl
    | cons ins rest ih =>
      intro w
      rw [List.foldl_cons, ih, List.flatMap_cons, List.foldl_append]
      rfl
  rw [instrumentBbl, loop]
  rfl

theorem tracked_blockCalls (intrinsics : List IntrinsicInfo) (bbl : BBL)
    (small : bbl.instructions.length < 65536) :
    TracedSession [placedBlock intrinsics bbl small] 0 (blockCalls intrinsics bbl) := by
  have loop : ∀ instructions : List INS,
      let calls := instructions.flatMap fun ins => [Call.incStaticInstructionCount,
        .addInstruction (addedInstruction intrinsics ins)]
      calls.filter Call.adds =
          (instructions.map (addedInstruction intrinsics)).map .addInstruction ∧
        calls.countP Call.countsInstruction = instructions.length ∧
        calls.countP Call.countsBasicBlock = 0 ∧ calls.countP countsThread = 0 ∧
        ∀ target, Call.setTargetArch target ∉ calls := by
    intro instructions
    induction instructions with
    | nil => simp
    | cons ins rest ih =>
      obtain ⟨adds, counted, basicBlocks, threads, target⟩ := ih
      dsimp only at adds counted basicBlocks threads target ⊢
      refine ⟨?_, ?_, ?_, ?_, ?_⟩
      · rw [List.flatMap_cons, List.filter_append, adds]
        rfl
      · rw [List.flatMap_cons, List.countP_append, counted, List.length_cons, Nat.add_comm]
        rfl
      · rw [List.flatMap_cons, List.countP_append, basicBlocks]
        rfl
      · rw [List.flatMap_cons, List.countP_append, threads]
        rfl
      · intro code member
        rw [List.flatMap_cons, List.mem_append] at member
        rcases member with here | later
        · simp at here
        · exact target code later
  obtain ⟨adds, counted, basicBlocks, threads, target⟩ := loop bbl.instructions
  refine ⟨⟨?_, ?_, ?_⟩, ?_, ?_⟩
  · rw [blockCalls, List.filter_cons_of_pos rfl,
      List.filter_cons_of_neg (by exact Bool.false_ne_true), adds]
    simp [placedBlock, PlacedBlock.calls, PlacedBlock.instructions, recordedBlock]
  · rw [blockCalls, List.countP_cons_of_neg (by exact Bool.false_ne_true),
      List.countP_cons_of_neg (by exact Bool.false_ne_true), counted]
    simp [placedBlock, PlacedBlock.instructions, recordedBlock]
  · rw [blockCalls, List.countP_cons_of_neg (by exact Bool.false_ne_true),
      List.countP_cons_of_pos rfl, basicBlocks]
    rfl
  · rw [blockCalls, List.countP_cons_of_neg (by exact Bool.false_ne_true),
      List.countP_cons_of_neg (by exact Bool.false_ne_true), threads]
  · intro code member
    rw [blockCalls, List.mem_cons, List.mem_cons] at member
    rcases member with size | count | later
    · cases size
    · cases count
    · exact target code later

theorem call_header_rest {g : Gathered} {w : StaticTraceWriter} (before : Gathers g w) (c : Call)
    (small : ∀ size, c = .addBasicBlockSize size → size.toNat < 65536)
    (target : ∀ code, c ≠ .setTargetArch code) :
    (w.call c).header.traceVersion = w.header.traceVersion ∧
      (w.call c).header.targetArch = w.header.targetArch ∧
      (w.call c).header.threadCount =
        w.header.threadCount + BitVec.ofNat 16 (if countsThread c then 1 else 0) := by
  cases c with
  | addBasicBlockSize size =>
    have kept := (before.addBasicBlockSize size (small size rfl)).2
    simp [StaticTraceWriter.call, kept, countsThread]
  | addInstruction inst =>
    have kept := (before.addInstruction inst).2
    simp [StaticTraceWriter.call, kept, countsThread]
  | incStaticInstructionCount =>
    refine ⟨rfl, rfl, ?_⟩
    simp [StaticTraceWriter.call, incStaticInstructionCount, countsThread]
  | incBasicBlockCount =>
    refine ⟨rfl, rfl, ?_⟩
    simp [StaticTraceWriter.call, incBasicBlockCount, countsThread]
  | incThreadCount =>
    refine ⟨rfl, rfl, ?_⟩
    simp [StaticTraceWriter.call, incThreadCount, countsThread]
  | setTargetArch code => exact absurd rfl (target code)

/-- The fields of the header that do not count blocks or instructions. -/
theorem calls_header_rest (calls : List Call) {g : Gathered} {w : StaticTraceWriter}
    (before : Gathers g w)
    (small : ∀ size, .addBasicBlockSize size ∈ calls → size.toNat < 65536)
    (target : ∀ code, .setTargetArch code ∉ calls) :
    (calls.foldl StaticTraceWriter.call w).header.traceVersion = w.header.traceVersion ∧
      (calls.foldl StaticTraceWriter.call w).header.targetArch = w.header.targetArch ∧
      (calls.foldl StaticTraceWriter.call w).header.threadCount =
        w.header.threadCount + BitVec.ofNat 16 (calls.countP countsThread) := by
  induction calls generalizing g w with
  | nil => simp
  | cons c calls ih =>
    have here : ∀ size, c = .addBasicBlockSize size → size.toNat < 65536 := by
      rintro size rfl
      exact small size (List.mem_cons_self ..)
    have other : ∀ code, c ≠ .setTargetArch code := by
      rintro code rfl
      exact target code (List.mem_cons_self ..)
    obtain ⟨version, arch, threads⟩ := call_header_rest before c here other
    obtain ⟨versions, archs, all⟩ := ih (before.call c here)
      (fun size member => small size (List.mem_cons_of_mem c member))
      fun code member => target code (List.mem_cons_of_mem c member)
    rw [List.foldl_cons]
    refine ⟨versions.trans version, archs.trans arch, ?_⟩
    rw [all, threads, List.countP_cons, BitVec.ofNat_add, BitVec.add_assoc]
    exact congrArg _ (BitVec.add_comm _ _)

/-- The sizes of the calls of a session are those of its blocks. -/
theorem Session.small {blocks : List PlacedBlock} {calls : List Call}
    (session : Session blocks calls) :
    ∀ size, .addBasicBlockSize size ∈ calls → size.toNat < 65536 := by
  intro size member
  have added : .addBasicBlockSize size ∈ calls.filter Call.adds :=
    List.mem_filter.mpr ⟨member, rfl⟩
  rw [session.adds, List.mem_flatMap] at added
  obtain ⟨b, _, here⟩ := added
  have this : size = BitVec.ofNat 32 b.instructions.length := by
    simpa [PlacedBlock.calls] using here
  have bound := b.size_lt
  rw [this, BitVec.toNat_ofNat]
  exact Nat.lt_of_le_of_lt (Nat.mod_le _ _) bound

/-- The static writer of a tool that has instrumented some blocks and seen so many threads
start. -/
structure StaticTraced (intrinsics : List IntrinsicInfo) (cache : List InstrumentedBlock)
    (threads : Nat) (w : StaticTraceWriter) : Prop where
  given : ∃ blocks calls, w = calls.foldl StaticTraceWriter.call create.openFile ∧
    TracedSession blocks threads calls ∧
    blocks.map PlacedBlock.instructions = cache.map fun b => recordedBlock intrinsics b.bbl
  /-- The arguments of the calls that were inserted. -/
  inserted : ∀ k (present : k < cache.length),
    cache[k].basicBlockIndex = BitVec.ofNat 32 k ∧
      cache[k].numberInstInBasicBlock = BitVec.ofNat 32 cache[k].bbl.instructions.length ∧
      cache[k].memoryCalls =
        cache[k].bbl.instructions.filter (callsAppendToMemTrace intrinsics)
  small : ∀ b ∈ cache, b.bbl.instructions.length < 65536

theorem staticTraced_openFile (intrinsics : List IntrinsicInfo) :
    StaticTraced intrinsics [] 0 create.openFile where
  given := ⟨[], [], rfl, tracked_nil, rfl⟩
  inserted := fun k present => absurd present (Nat.not_lt_zero k)
  small := fun _ member => absurd member List.not_mem_nil

section Traced

variable {intrinsics : List IntrinsicInfo} {cache : List InstrumentedBlock} {threads : Nat}
  {w : StaticTraceWriter}

theorem StaticTraced.bblCount (traced : StaticTraced intrinsics cache threads w) :
    w.header.bblCount = BitVec.ofNat 32 cache.length := by
  obtain ⟨blocks, calls, rfl, tracked, same⟩ := traced.given
  obtain ⟨_, count⟩ := calls_header calls gathers_openFile tracked.session.small
  have length := congrArg List.length same
  rw [List.length_map, List.length_map] at length
  rw [count, tracked.session.basicBlocks, length]
  exact BitVec.zero_add _

theorem StaticTraced.incThreadCount (traced : StaticTraced intrinsics cache threads w) :
    StaticTraced intrinsics cache (threads + 1) w.incThreadCount where
  given := by
    obtain ⟨blocks, calls, rfl, tracked, same⟩ := traced.given
    refine ⟨blocks ++ [], calls ++ [.incThreadCount], ?_, tracked.append tracked_thread, ?_⟩
    · rw [List.foldl_append]
      rfl
    · rw [List.append_nil, same]
  inserted := traced.inserted
  small := traced.small

theorem StaticTraced.instrumentBbl (traced : StaticTraced intrinsics cache threads w) (bbl : BBL)
    (small : bbl.instructions.length < 65536) :
    StaticTraced intrinsics (cache ++ [(instrumentBbl intrinsics w bbl).2]) threads
      (instrumentBbl intrinsics w bbl).1 where
  given := by
    obtain ⟨blocks, calls, written, tracked, same⟩ := traced.given
    refine ⟨blocks ++ [placedBlock intrinsics bbl small], calls ++ blockCalls intrinsics bbl, ?_,
      tracked.append (tracked_blockCalls intrinsics bbl small), ?_⟩
    · rw [instrumentBbl_calls, List.foldl_append, ← written]
    · rw [List.map_append, List.map_append, same]
      rfl
  inserted := by
    intro k present
    rw [List.getElem_append]
    split
    · rename_i old
      exact traced.inserted k old
    · rename_i new
      have last : k = cache.length := by
        rw [List.length_append, List.length_singleton] at present
        omega
      subst last
      simp only [Nat.sub_self, List.getElem_cons_zero]
      exact ⟨traced.bblCount, rfl, rfl⟩
  small := by
    intro b member
    rcases List.mem_append.mp member with old | new
    · exact traced.small b old
    · cases List.mem_singleton.mp new
      exact small

theorem StaticTraced.instrumentBbls (traced : StaticTraced intrinsics cache threads w)
    (bbls : List BBL) (small : ∀ bbl ∈ bbls, bbl.instructions.length < 65536) :
    StaticTraced intrinsics (cache ++ (instrumentBbls intrinsics w bbls).2) threads
      (instrumentBbls intrinsics w bbls).1 := by
  induction bbls generalizing cache w with
  | nil => simpa [Source.instrumentBbls] using traced
  | cons bbl bbls ih =>
    have first := traced.instrumentBbl bbl (small bbl (List.mem_cons_self ..))
    have rest := ih first fun b member => small b (List.mem_cons_of_mem bbl member)
    rw [List.append_assoc] at rest
    exact rest

end Traced

end Sinuca3.Guarantees
