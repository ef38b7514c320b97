import Sinuca3.Source.Tracer.FetchIndices
import Sinuca3.Guarantees.FaithfulReplay

/-!
# The ranges of a replay

`Fetch` checks none of the numbers it indexes with: the thread comes from the number of
cores, the basic block from the dynamic trace, and the number of memory operations from
the memory trace. What is in range by itself is the place inside a basic block.
-/
namespace Sinuca3.Guarantees
open Sinuca3.Source Lib

/-- The instruction the thread's records lead to next, if its turn is to execute one. -/
def nextInstruction (s : SinucaTraceReader) (tid : Nat) : Option (Nat × Nat) :=
  let t := s.threadDataVec tid
  if t.dynFile.hasReachedEnd || s.isThreadSleeping tid then none
  else if t.isInsideBasicBlock then some (t.currentBasicBlock, t.currentInst)
  else
    match (replayEvents tid (s.pending tid) s.toReplayControl).1 with
    | .found bblIndex => some (bblIndex, 0)
    | _ => none

/-- It is in a block of the dictionary and, if it accesses memory, the group that waits
for it fits in a packet. -/
def InstructionFits (d : StaticDictionary) (memFile : MemoryTraceReader) :
    Option (Nat × Nat) → Prop
  | none => True
  | some (bblIndex, inst) =>
    bblIndex < d.blocks.length ∧
      (accessesMemory ((d.block bblIndex).getD inst default) = true →
        memFile.reachedEnd = false → GroupFits memFile.pending)

instance (d : StaticDictionary) (memFile : MemoryTraceReader) :
    DecidablePred (InstructionFits d memFile)
  | none => .isTrue trivial
  | some _ => inferInstanceAs (Decidable (_ ∧ _))

/-- The call is for a thread of the trace, and what this comes to fits. -/
def WithinTrace (d : StaticDictionary) (threads : Nat) (s : SinucaTraceReader) (call : FetchCall) :
    Prop :=
  (s.reachedAbruptEnd = true ∨ 0 < threads) ∧
    (s.hasExecutionEnded = false → call.tid < threads ∧
      InstructionFits d (s.threadDataVec call.tid).memFile (nextInstruction s call.tid))

instance (d : StaticDictionary) (threads : Nat) (s : SinucaTraceReader) (call : FetchCall) :
    Decidable (WithinTrace d threads s call) :=
  inferInstanceAs (Decidable (_ ∧ _))

/-- Every index the call uses is in range. -/
def FetchInRange (d : StaticDictionary) (threads : Nat) (s : SinucaTraceReader) (call : FetchCall) :
    Prop :=
  ∀ i ∈ s.fetchIndices call, i.InRange d threads

instance (d : StaticDictionary) (threads : Nat) (s : SinucaTraceReader) (call : FetchCall) :
    Decidable (FetchInRange d threads s call) :=
  inferInstanceAs (Decidable (∀ _ ∈ _, _))

section Ranges

variable {d : StaticDictionary}

/-- A thread whose place is inside its basic block, if it is in one. -/
structure PlacedThread (d : StaticDictionary) (t : ThreadData) : Prop where
  dynamic : t.dynFile.Consistent
  memory : t.memFile.Consistent
  inside : t.isInsideBasicBlock = true → t.currentInst < (d.block t.currentBasicBlock).length

structure Placed (d : StaticDictionary) (s : SinucaTraceReader) : Prop where
  dictionary : Dictionary d s
  threads : ∀ tid, PlacedThread d (s.threadDataVec tid)

theorem Placed.set {s : SinucaTraceReader} (placed : Placed d s) (c : ReplayControl) (tid : Nat)
    {t : ThreadData} (thread : PlacedThread d t) : Placed d ((s.setControl c).setThread tid t) := by
  refine ⟨⟨placed.dictionary.sizes, placed.dictionary.instructions⟩, fun u => ?_⟩
  by_cases here : u = tid
  · subst here
    rw [SinucaTraceReader.setThread_same]
    exact thread
  · rw [SinucaTraceReader.setThread_other _ _ _ _ here]
    exact placed.threads u

theorem placed_openTrace (d : StaticDictionary) (threads : List ThreadFiles)
    (garbage : Nat → BitVec 64) : Placed d (.openTrace d threads garbage) := by
  refine ⟨⟨rfl, rfl⟩, fun tid => ?_⟩
  exact {
    dynamic := DynamicTraceReader.consistent_openFile _
    memory := MemoryTraceReader.consistent_openFile _
    inside := by simp [SinucaTraceReader.openTrace] }

/-- No block of a dictionary is empty. -/
theorem block_pos {bblIndex : Nat} (known : bblIndex < d.blocks.length) :
    0 < (d.block bblIndex).length := by
  simp only [StaticDictionary.block, List.getD_eq_getElem?_getD, known, getElem?_pos,
    Option.getD_some]
  exact List.length_pos_iff.mpr (d.nonempty _ (List.getElem_mem known))

/-- The tail of `Fetch` keeps every thread in its place. -/
theorem fetchInstruction_placed {s : SinucaTraceReader} (placed : Placed d s)
    (ret : InstructionPacket) (tid : Nat)
    (inside : (s.threadDataVec tid).isInsideBasicBlock = true) :
    Placed d (s.fetchInstruction ret tid).2.2 := by
  have counted : ∀ s' : SinucaTraceReader, Placed d s' →
      (s'.threadDataVec tid).isInsideBasicBlock = true → Placed d (s'.countInstruction tid) := by
    intro s' placed' inside'
    obtain ⟨t, count, sameDynamic, sameMemory, within, _⟩ :=
      countInstruction_eq s' tid placed'.dictionary inside'
    rw [count]
    apply placed'.set s'.toReplayControl tid
    exact {
      dynamic := sameDynamic ▸ (placed'.threads tid).dynamic
      memory := sameMemory ▸ (placed'.threads tid).memory
      inside := within }
  have read : ∀ packet, Placed d (s.fetchMemoryData packet tid).2.2 ∧
      ((s.fetchMemoryData packet tid).2.2.threadDataVec tid).isInsideBasicBlock = true := by
    intro packet
    unfold SinucaTraceReader.fetchMemoryData
    dsimp only
    split
    · exact ⟨placed, inside⟩
    · refine ⟨placed.set s.toReplayControl tid ?_, by simpa using inside⟩
      exact {
        dynamic := (placed.threads tid).dynamic
        memory := MemoryTraceReader.readMemoryOperations_consistent _ _ (placed.threads tid).memory
        inside := (placed.threads tid).inside }
  unfold SinucaTraceReader.fetchInstruction
  dsimp only
  split
  · obtain ⟨fine, still⟩ := read { SinucaTraceReader.resetInstructionPacket ret with
      staticInfo := s.instructionDict (s.threadDataVec tid).currentBasicBlock
        (s.threadDataVec tid).currentInst }
    split
    · rename_i failed
      rw [failed] at fine
      exact fine
    · rename_i done
      rw [done] at fine still
      exact counted _ fine still
  · exact counted s placed inside

/-- A call within the trace keeps every thread in its place. -/
theorem step_preserves_placed {s : SinucaTraceReader} (placed : Placed d s) (threads : Nat)
    (call : FetchCall) (within : WithinTrace d threads s call) :
    Placed d (replayStep s call).1 := by
  have thread := placed.threads call.tid
  have cases := s.fetch_cases call.ret call.tid thread.dynamic
  change Placed d (s.fetch call.ret call.tid).2.2
  generalize s.fetch call.ret call.tid = result at cases ⊢
  cases cases with
  | executionEnded => exact placed
  | idle => exact placed
  | inside _ _ _ block => exact fetchInstruction_placed placed call.ret call.tid block
  | missing _ _ _ outside search rest c _ _ dynFile _ fresh _ =>
    apply placed.set
    exact { dynamic := fresh, memory := thread.memory, inside := by simp [outside] }
  | entered going running awake outside bblIndex rest c replayed dynFile _ fresh _ =>
    have next : nextInstruction s call.tid = some (bblIndex, 0) := by
      have found : (replayEvents call.tid (s.pending call.tid) s.toReplayControl).1 =
          .found bblIndex := by
        rw [SinucaTraceReader.pending, replayed]
      simp [nextInstruction, DynamicTraceReader.hasReachedEnd, running,
        SinucaTraceReader.isThreadSleeping, awake, outside, found]
    have fits := (within.2 going).2
    rw [next] at fits
    apply fetchInstruction_placed
    · apply placed.set
      exact { dynamic := fresh, memory := thread.memory, inside := fun _ => block_pos fits.1 }
    · simp

/-- Where `Fetch` comes to an instruction, it is the one the records lead to. -/
theorem atInstruction_cases (s : SinucaTraceReader) (tid : Nat)
    (consistent : (s.threadDataVec tid).dynFile.Consistent) :
    (s.atInstruction tid = none ∧ nextInstruction s tid = none) ∨
    ∃ c t, s.atInstruction tid = some ((s.setControl c).setThread tid t) ∧
      nextInstruction s tid = some (t.currentBasicBlock, t.currentInst) ∧
      t.memFile = (s.threadDataVec tid).memFile ∧
      ((s.threadDataVec tid).isInsideBasicBlock = true ∧ t = s.threadDataVec tid ∨
        t.currentInst = 0) := by
  unfold SinucaTraceReader.atInstruction nextInstruction
  dsimp only
  split
  · rename_i ended
    exact .inl ⟨rfl, by rw [if_pos (by simp [ended])]⟩
  rename_i running
  split
  · rename_i sleeping
    exact .inl ⟨rfl, by rw [if_pos (by simp [sleeping])]⟩
  rename_i awake
  have turn : ¬ ((s.threadDataVec tid).dynFile.hasReachedEnd || s.isThreadSleeping tid) = true := by
    simp [running, awake]
  rw [if_neg turn]
  split
  · rename_i inside
    refine .inr ⟨s.toReplayControl, s.threadDataVec tid, ?_, rfl, rfl, .inl ⟨inside, rfl⟩⟩
    rw [SinucaTraceReader.setControl_same, SinucaTraceReader.setThread_self]
  obtain ⟨dynFile, found, _⟩ :=
    (s.setThread tid { s.threadDataVec tid with currentInst := 0 }).fetchBasicBlock_eq tid
      (by simpa using consistent)
      (by simpa [DynamicTraceReader.hasReachedEnd] using running)
  simp only [SinucaTraceReader.setThread_same, SinucaTraceReader.setThread_control] at found
  rw [SinucaTraceReader.pending, found]
  generalize replayEvents tid (s.threadDataVec tid).dynFile.pending s.toReplayControl = replayed
  obtain ⟨search, rest, c⟩ := replayed
  cases search with
  | found bblIndex =>
    exact .inr ⟨c, { s.threadDataVec tid with
      dynFile := dynFile, currentBasicBlock := bblIndex, currentInst := 0,
      isInsideBasicBlock := true }, by
        simp [BlockSearch.missing, SinucaTraceReader.searched,
          SinucaTraceReader.setThread_setControl], rfl, rfl, .inr rfl⟩
  | stopped => exact .inl ⟨rfl, rfl⟩
  | ended => exact .inl ⟨rfl, rfl⟩

/-- A call uses no index out of range exactly when it is within the trace. -/
theorem fetchInRange_iff {s : SinucaTraceReader} (placed : Placed d s) (threads : Nat)
    (call : FetchCall) : FetchInRange d threads s call ↔ WithinTrace d threads s call := by
  have thread := placed.threads call.tid
  have zero : (∀ i ∈ if s.reachedAbruptEnd then [] else [ReplayIndex.thread 0],
      i.InRange d threads) ↔ (s.reachedAbruptEnd = true ∨ 0 < threads) := by
    cases s.reachedAbruptEnd <;> simp [ReplayIndex.InRange]
  unfold FetchInRange SinucaTraceReader.fetchIndices WithinTrace
  rw [List.forall_mem_append, zero]
  refine and_congr_right fun _ => ?_
  cases going : s.hasExecutionEnded with
  | true => simp
  | false =>
    rw [if_neg (by simp), List.forall_mem_cons]
    simp only [forall_const]
    refine and_congr Iff.rfl ?_
    rcases atInstruction_cases s call.tid thread.dynamic with
      ⟨none, none'⟩ | ⟨c, t, found, next, memory, place⟩
    · rw [none, none']
      simp [InstructionFits]
    · rw [found, next, ← memory]
      have instructions : ((s.setControl c).setThread call.tid t).instructionDict
          t.currentBasicBlock t.currentInst =
          (d.block t.currentBasicBlock).getD t.currentInst default := by
        simp [placed.dictionary.instructions]
      -- A thread in a block is in its place there, and another enters at the front.
      have placeInside : t.currentBasicBlock < d.blocks.length →
          t.currentInst < (d.block t.currentBasicBlock).length := by
        intro known
        rcases place with ⟨inside, rfl⟩ | front
        · exact thread.inside inside
        · rw [front]
          exact block_pos known
      have memoryFits : t.memFile.reachedEnd = false →
          ((∀ i ∈ t.memFile.memoryOperationSlots
              (SinucaTraceReader.resetInstructionPacket call.ret).dynamicInfo,
            i.InRange d threads) ↔ GroupFits t.memFile.pending) :=
        fun running => MemoryTraceReader.memoryOperationSlots_inRange d threads t.memFile _
          (memory ▸ thread.memory) running rfl rfl
      unfold SinucaTraceReader.instructionIndices InstructionFits
      dsimp only
      rw [SinucaTraceReader.setThread_same, instructions, List.forall_mem_cons]
      refine and_congr ⟨fun inside => inside.1, fun known => ⟨known, placeInside known⟩⟩ ?_
      have access : ∀ i : StaticInstructionInfo,
          (i.instReadsMemory || i.instWritesMemory) = accessesMemory i := fun _ => rfl
      rw [access]
      cases accessesMemory ((d.block t.currentBasicBlock).getD t.currentInst default) with
      | false => simp
      | true =>
        unfold MemoryTraceReader.hasReachedEnd
        cases running : t.memFile.reachedEnd with
        | true => simp
        | false => simpa [running] using memoryFits running

/-- For every dictionary, every content of the trace files and every list of calls, of
however many cores: no call uses an index out of its range if and only if every call is
for a thread of the trace and comes to nothing, or to an instruction of a block of the
dictionary with a group of memory operations that fits in a packet. -/
theorem replay_in_range (d : StaticDictionary) (threads : List ThreadFiles)
    (garbage : Nat → BitVec 64) (calls : List FetchCall) :
    Machine.Meets replayStep (FetchInRange d threads.length) (.openTrace d threads garbage) calls ↔
      Machine.Meets replayStep (WithinTrace d threads.length) (.openTrace d threads garbage)
        calls := by
  apply Machine.meets_congr replayStep _ _ (Placed d)
  · intro s call placed
    exact fetchInRange_iff placed threads.length call
  · intro s call placed within
    exact step_preserves_placed placed threads.length call within
  · exact placed_openTrace d threads garbage

end Ranges

/-- A trace of one thread with a block of one instruction, and the fetches of two cores;
and the same trace with a block identifier past its dictionary. -/
theorem replay_out_of_range :
    ¬ Machine.Meets replayStep (FetchInRange oneInstruction 1)
      (.openTrace oneInstruction [{ dynamic := [.basicBlock 0], memory := [] }] fun _ => 0)
      [⟨{}, 0⟩, ⟨{}, 1⟩] ∧
    ¬ Machine.Meets replayStep (FetchInRange oneInstruction 1)
      (.openTrace oneInstruction [{ dynamic := [.basicBlock 1], memory := [] }] fun _ => 0)
      [⟨{}, 0⟩] := by
  constructor
  · rintro ⟨_, second, _⟩
    revert second
    decide +kernel
  · rintro ⟨first, _⟩
    revert first
    decide +kernel

end Sinuca3.Guarantees
