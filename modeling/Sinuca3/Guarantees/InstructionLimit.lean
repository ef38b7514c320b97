import Mathlib.Algebra.Order.BigOperators.Group.List
import Sinuca3.Guarantees.TracedProgram

/-!
# The limit on instructions

`AppendToDynamicTrace` compares what all threads have executed so far with the limit, and
then counts the block. That counter is the sum of what the headers of the traces count, and
it passes the limit by less than a block, in whatever order the threads get the lock.
-/
namespace Sinuca3.Guarantees
open Sinuca3.Source Lib

/-- What the header of the trace of a thread counts. -/
def headerCount (d : Pintool.ThreadData) : Nat :=
  d.dynamicTrace.header.totalExecutedInstructions.toNat

def totalExecuted (data : List Pintool.ThreadData) : Nat := (data.map headerCount).sum

section Totals

/-- One thread counts more or less, and the sum does. -/
theorem totalExecuted_set {data : List Pintool.ThreadData} {i : Nat} {d : Pintool.ThreadData}
    (present : data[i]? = some d) (d' : Pintool.ThreadData) :
    totalExecuted (data.set i d') + headerCount d = totalExecuted data + headerCount d' := by
  induction data generalizing i with
  | nil => cases present
  | cons first rest ih =>
    cases i with
    | zero =>
      cases present
      simp only [totalExecuted, List.set_cons_zero, List.map_cons, List.sum_cons]
      omega
    | succ i =>
      have tail := ih (i := i) (by simpa using present)
      simp only [totalExecuted, List.set_cons_succ, List.map_cons, List.sum_cons] at tail ⊢
      omega

theorem headerCount_le_totalExecuted {data : List Pintool.ThreadData} {i : Nat}
    {d : Pintool.ThreadData} (present : data[i]? = some d) :
    headerCount d ≤ totalExecuted data :=
  List.le_sum_of_mem (List.mem_map_of_mem (List.mem_of_getElem? present))

theorem addRecord_header {α : Type} (c : Codec α) (w : TraceWriter α) (record : α) :
    (w.addRecord c record).2.header = w.header := by
  unfold TraceWriter.addRecord TraceWriter.checkRecordArray TraceWriter.flushRecordArray
  cases opened : w.file with
  | none =>
    dsimp only
    split <;> rfl
  | some file =>
    dsimp only
    split <;> rfl


/-- Nothing that the limit depends on is different. -/
structure SameCount (t t' : Pintool) : Prop where
  knob : t'.knobNumberOfInstructions = t.knobNumberOfInstructions
  counter : t'.numberOfExecInst = t.numberOfExecInst
  total : totalExecuted t'.threadDataVec = totalExecuted t.threadDataVec

theorem SameCount.trans {t t' t'' : Pintool} (first : SameCount t t')
    (second : SameCount t' t'') : SameCount t t'' :=
  ⟨second.knob.trans first.knob, second.counter.trans first.counter,
    second.total.trans first.total⟩

/-- A call of a writer that leaves the header. -/
theorem append_sameCount (t : Pintool) (i : Nat)
    {write : Pintool.ThreadData → Bool × Pintool.ThreadData}
    (keeps : ∀ d, headerCount (write d).2 = headerCount d) :
    SameCount t (t.append i write).2.1 := by
  unfold Pintool.append
  cases present : t.threadDataVec[i]? with
  | none => exact ⟨rfl, rfl, rfl⟩
  | some d =>
    dsimp only
    split
    · exact ⟨rfl, rfl, rfl⟩
    · refine ⟨rfl, rfl, ?_⟩
      have total := totalExecuted_set present (write d).2
      rw [keeps] at total
      exact Nat.add_right_cancel total

theorem headerCount_addThreadEvent (evType : BitVec 32) (d : Pintool.ThreadData) :
    headerCount (Pintool.addThreadEvent evType d).2 = headerCount d :=
  congrArg (fun h : FileHeader => h.totalExecutedInstructions.toNat)
    (addRecord_header _ d.dynamicTrace _)

theorem broadcast_sameCount (evType : BitVec 32) (stops : Bool) (is : List Nat) (t : Pintool) :
    SameCount t (t.broadcast evType stops is).2.1 := by
  induction is generalizing t with
  | nil => exact ⟨rfl, rfl, rfl⟩
  | cons i is ih =>
    have first := append_sameCount t i (headerCount_addThreadEvent evType)
    rw [Pintool.broadcast]
    dsimp only
    split
    · exact first
    · exact first.trans (ih _)

end Totals

/-- The counter is that of all traces, and has passed the limit by less than a block. -/
structure CountedWithin (limit : BitVec 32) (t : Pintool) : Prop where
  knob : t.knobNumberOfInstructions = limit
  total : totalExecuted t.threadDataVec = t.numberOfExecInst.toNat
  bounded : t.numberOfExecInst.toNat ≤ limit.toNat + 65535

section Counting

variable {limit : BitVec 32} {t t' : Pintool}

theorem CountedWithin.same (before : CountedWithin limit t) (same : SameCount t t') :
    CountedWithin limit t' where
  knob := same.knob.trans before.knob
  total := by rw [same.total, same.counter, before.total]
  bounded := by
    rw [same.counter]
    exact before.bounded

/-- The comparison of `AppendToDynamicTrace`. -/
theorem CountedWithin.reachedMaximum_iff (counted : CountedWithin limit t)
    (limited : limit ≠ BitVec.allOnes 32) :
    t.reachedMaximum = true ↔ limit.toNat < t.numberOfExecInst.toNat := by
  have wide : (limit.setWidth 64).toNat = limit.toNat := by
    rw [BitVec.toNat_setWidth]
    exact Nat.mod_eq_of_lt (by omega)
  rw [Pintool.reachedMaximum, counted.knob, Bool.and_eq_true, decide_eq_true_iff,
    decide_eq_true_iff, BitVec.lt_def, wide]
  exact and_iff_right limited

/-- A block of a size that its record has room for. -/
theorem headerCount_addBasicBlockId (bblId : BitVec 32) {numInst : BitVec 32}
    (small : numInst.toNat < 65536) (d : Pintool.ThreadData)
    (few : headerCount d + numInst.toNat < 2 ^ 64) :
    headerCount (Pintool.addBasicBlockId bblId numInst d).2 = headerCount d + numInst.toNat := by
  have header := addRecord_header DynamicTraceRecord.codec
    (d.dynamicTrace.incExecutedInstructions numInst) { data := bblId, recordType := 0 }
  have positive : numInst.msb = false := BitVec.msb_eq_false_iff_two_mul_lt.mpr (by omega)
  have count : headerCount (Pintool.addBasicBlockId bblId numInst d).2 =
      (d.dynamicTrace.header.totalExecutedInstructions + numInst.signExtend 64).toNat := by
    refine (congrArg (fun h : FileHeader => h.totalExecutedInstructions.toNat) header).trans ?_
    rw [DynamicTraceWriter.incExecutedInstructions, FileHeader.totalExecutedInstructions_set]
  rw [count, BitVec.signExtend_eq_setWidth_of_msb_false positive, BitVec.toNat_add,
    BitVec.toNat_setWidth, Nat.mod_eq_of_lt (show numInst.toNat < 2 ^ 64 by omega)]
  exact Nat.mod_eq_of_lt few

/-- A block is counted as long as the limit is not reached. -/
theorem CountedWithin.appendToDynamicTrace (before : CountedWithin limit t)
    (limited : limit ≠ BitVec.allOnes 32) (below : t.reachedMaximum = false) {tid : THREADID}
    (bblId : BitVec 32) {numInst : BitVec 32} (small : numInst.toNat < 65536)
    (there : (registry t)[tid.toNat]? = some (tid, false)) :
    CountedWithin limit (t.appendToDynamicTrace tid bblId numInst).1 := by
  have room : t.numberOfExecInst.toNat ≤ limit.toNat := by
    by_contra more
    have reached := (before.reachedMaximum_iff limited).mpr (Nat.lt_of_not_le more)
    rw [below] at reached
    cases reached
  have count : (t.numberOfExecInst + numInst.setWidth 64).toNat =
      t.numberOfExecInst.toNat + numInst.toNat := by
    rw [BitVec.toNat_add, BitVec.toNat_setWidth]
    omega
  rw [registry, List.getElem?_map, Option.map_eq_some_iff] at there
  obtain ⟨d, present, entry⟩ := there
  have undeleted : d.deleted = false := congrArg Prod.snd entry
  have least := headerCount_le_totalExecuted present
  have total := totalExecuted_set present (Pintool.addBasicBlockId bblId numInst d).2
  rw [before.total] at least total
  rw [headerCount_addBasicBlockId bblId small d (by omega)] at total
  unfold Pintool.appendToDynamicTrace
  rw [if_neg (by simp [below])]
  unfold Pintool.append
  dsimp only
  rw [present]
  dsimp only
  rw [if_neg (by simp [undeleted])]
  refine ⟨before.knob, ?_, ?_⟩
  · dsimp only
    rw [count]
    omega
  · dsimp only
    rw [count]
    omega

end Counting

/-- All blocks that were entered have sizes that their records have room for. -/
def SmallBlocks (inputs : List ToolStep) : Prop :=
  ∀ tid, ∀ block ∈ calledBlocks tid inputs, block.2.toNat < 65536

section Steps

variable {limit : BitVec 32} {t : Tool} {inputs : List ToolStep} {log : List PintoolEvent}

theorem smallBlocks_of_append {more : List ToolStep} (small : SmallBlocks (inputs ++ more)) :
    SmallBlocks inputs := by
  intro tid block member
  refine small tid block ?_
  rw [calledBlocks, List.filterMap_append]
  exact List.mem_append_left _ member

/-- The block that a thread is about to append was entered. -/
theorem Tracing.mem_calledBlocks (tracing : Tracing t inputs log) {tid : THREADID}
    {bblId numInst : BitVec 32}
    (inside : t.pin.threads tid = .inCallback (.appendToDynamicTrace bblId numInst)) :
    (registry t.pin.tool)[tid.toNat]? = some (tid, false) ∧
      (bblId, numInst) ∈ calledBlocks tid inputs := by
  have there := tracing.ordered.there ((tracing.ordered.live tid).mpr (by rw [inside]; simp))
  refine ⟨there, ?_⟩
  rw [registry, List.getElem?_map, Option.map_eq_some_iff] at there
  obtain ⟨d, present, _⟩ := there
  have traced := tracing.data tid.toNat d present
  rw [BitVec.ofNat_toNat, BitVec.setWidth_eq, inside] at traced
  obtain ⟨done, _, all⟩ := traced.dynamic
  rw [← all]
  exact List.mem_append_right done (List.mem_singleton.mpr rfl)

/-- The rest of a callback. -/
theorem CountedWithin.resume (before : CountedWithin limit t.pin.tool)
    (limited : limit ≠ BitVec.allOnes 32) (tracing : Tracing t inputs log)
    (small : SmallBlocks inputs) {tid : THREADID}
    {callback : Callback} (inside : t.pin.threads tid = .inCallback callback)
    (within : WithinLimit t.pin tid) : CountedWithin limit (t.pin.resume tid callback).1.tool := by
  cases callback with
  | appendToMemTrace calls =>
    cases calls with
    | nil => exact before
    | cons call calls =>
      exact before.same (append_sameCount t.pin.tool tid.toNat (fun _ => rfl))
  | onThreadFini =>
    rw [PinState.resume, if_neg (by simp [tracing.released])]
    refine before.same ⟨rfl, rfl, ?_⟩
    change totalExecuted (t.pin.tool.threadDataVec.modify tid.toNat _) = _
    rw [totalExecuted, totalExecuted]
    congr 1
    apply List.ext_getElem?
    intro i
    rw [List.getElem?_map, List.getElem?_modify, List.getElem?_map]
    cases t.pin.tool.threadDataVec[i]? with
    | none => rfl
    | some d =>
      refine congrArg some ?_
      dsimp only
      split <;> rfl
  | appendToDynamicTrace bblId numInst =>
    obtain ⟨there, entered⟩ := tracing.mem_calledBlocks inside
    rw [PinState.resume, if_neg (by simp [tracing.released])]
    exact before.appendToDynamicTrace limited (within bblId numInst inside) bblId
      (small tid _ entered) there
  | onThreadEvent evType isMasterThreadEv =>
    have own := append_sameCount t.pin.tool tid.toNat (headerCount_addThreadEvent evType)
    rw [PinState.resume, if_neg (by simp [tracing.released]), Pintool.onThreadEvent]
    dsimp only
    split
    · exact before.same ⟨own.knob, own.counter, own.total⟩
    · split
      · have others := own.trans (broadcast_sameCount evType true
          ((t.pin.tool.append tid.toNat (Pintool.addThreadEvent evType)).2.1.indices 1) _)
        exact before.same ⟨others.knob, others.counter, others.total⟩
      · exact before.same own

/-- What one step of the tool keeps. -/
theorem CountedWithin.step (before : CountedWithin limit t.pin.tool)
    (limited : limit ≠ BitVec.allOnes 32) (tracing : Tracing t inputs log)
    (small : SmallBlocks inputs) (step : ToolStep)
    (behaves : WellBehaved t step) : CountedWithin limit (t.step step).1.pin.tool := by
  cases step with
  | onThreadStart tid dynamicOpens memoryOpens =>
    rw [Tool.step, if_neg (by simp [tracing.released]), Tool.pinStep, PinState.step,
      if_neg (by simp [tracing.released])]
    refine before.same ⟨rfl, rfl, ?_⟩
    change totalExecuted (t.pin.tool.threadDataVec ++ [_]) = _
    have fresh : ∀ d : Pintool.ThreadData, headerCount d = 0 →
        totalExecuted (t.pin.tool.threadDataVec ++ [d]) =
          totalExecuted t.pin.tool.threadDataVec := by
      intro d zero
      rw [totalExecuted, List.map_append, List.sum_append]
      simp [zero, totalExecuted]
    refine fresh _ ?_
    cases dynamicOpens <;> rfl
  | onTrace tid trace =>
    rw [Tool.step, Tool.onTrace]
    split
    · exact before.same ⟨rfl, rfl, rfl⟩
    · exact before
  | call tid call =>
    rw [Tool.step, Tool.pinStep, PinState.step]
    unfold PinState.call
    split
    · exact before
    · cases call <;> exact before
  | resume tid =>
    rw [Tool.step, Tool.pinStep, PinState.step]
    cases inside : t.pin.threads tid with
    | inCallback callback => exact before.resume limited tracing small inside behaves.2
    | _ => exact before
  | initInstrumentation =>
    rw [Tool.step, Tool.initInstrumentation]
    split <;> exact before
  | stopInstrumentation =>
    rw [Tool.step, Tool.stopInstrumentation]
    split <;> exact before
  | resumeInstrumentationInThread tid =>
    rw [Tool.step, Tool.setThreadInstrumentating]
    split <;> exact before
  | stopInstrumentationInThread tid =>
    rw [Tool.step, Tool.setThreadInstrumentating]
    split <;> exact before

end Steps

theorem counted_initial (intrinsics : List IntrinsicInfo) (knobForceInstrumentation : Bool)
    (limit : BitVec 32) :
    CountedWithin limit (Tool.initial intrinsics knobForceInstrumentation limit).pin.tool :=
  ⟨rfl, rfl, Nat.zero_le _⟩

section Exact

variable {limit : BitVec 32} {t : Tool} {inputs : List ToolStep} {log : List PintoolEvent}

theorem toInt_small {n : BitVec 32} (small : n.toNat < 65536) : n.toInt = n.toNat := by
  rw [BitVec.toInt_eq_toNat_cond, if_pos (by omega)]

theorem instructionsOf_nonneg {blocks : List (BitVec 32 × BitVec 32)}
    (small : ∀ block ∈ blocks, block.2.toNat < 65536) : 0 ≤ instructionsOf blocks := by
  induction blocks with
  | nil => exact Int.le_refl 0
  | cons block blocks ih =>
    have rest := ih fun other member => small other (List.mem_cons_of_mem block member)
    rw [instructionsOf, toInt_small (small block (List.mem_cons_self ..))]
    omega

/-- No header has wrapped. -/
def Unwrapped (inputs : List ToolStep) : Prop :=
  ∀ tid, instructionsOf (calledBlocks tid inputs) < 18446744073709551616

/-- The header of a thread counts the blocks that it has entered, but for one that it is
about to append. -/
theorem Tracing.headerCount_eq (tracing : Tracing t inputs log) (small : SmallBlocks inputs)
    (unwrapped : Unwrapped inputs) {i : Nat} {d : Pintool.ThreadData}
    (present : t.pin.tool.threadDataVec[i]? = some d) :
    (headerCount d : Int) + instructionsOf (pendingBlocks (t.pin.threads (BitVec.ofNat 32 i))) =
      instructionsOf (calledBlocks (BitVec.ofNat 32 i) inputs) := by
  obtain ⟨done, traced, all⟩ := (tracing.data i d present).dynamic
  obtain ⟨records, given, _, _⟩ := traced.given
  have below := unwrapped (BitVec.ofNat 32 i)
  have known := small (BitVec.ofNat 32 i)
  rw [← all] at below known
  have least : 0 ≤ instructionsOf done :=
    instructionsOf_nonneg fun block member => known block (List.mem_append_left _ member)
  have rest : 0 ≤ instructionsOf (pendingBlocks (t.pin.threads (BitVec.ofNat 32 i))) :=
    instructionsOf_nonneg fun block member => known block (List.mem_append_right _ member)
  rw [instructionsOf_append] at below
  have header : (headerCount d : Int) = instructionsOf done := by
    rw [headerCount, given.total, BitVec.toNat_ofInt]
    omega
  rw [← all, instructionsOf_append, header]

theorem instructionsOf_pendingBlocks {thread : PinThread}
    (small : ∀ block ∈ pendingBlocks thread, block.2.toNat < 65536) :
    instructionsOf (pendingBlocks thread) ≤ 65535 := by
  have single : ∀ block : BitVec 32 × BitVec 32, block.2.toNat < 65536 →
      instructionsOf [block] ≤ 65535 := by
    intro block few
    rw [instructionsOf, instructionsOf, toInt_small few]
    omega
  cases thread with
  | inCallback callback =>
    cases callback with
    | appendToDynamicTrace bblId numInst =>
      exact single _ (small _ (List.mem_singleton.mpr rfl))
    | _ => exact Int.le_of_lt (by decide : (0 : Int) < 65535)
  | _ => exact Int.le_of_lt (by decide : (0 : Int) < 65535)

/-- What a thread has entered, for a counter that has passed the limit by less than a
block. -/
theorem CountedWithin.called_le (counted : CountedWithin limit t.pin.tool)
    (tracing : Tracing t inputs log) (small : SmallBlocks inputs)
    (unwrapped : Unwrapped inputs) (tid : THREADID) :
    instructionsOf (calledBlocks tid inputs) ≤ limit.toNat + 131070 := by
  by_cases born : t.pin.threads tid = .unborn
  · rw [(tracing.unborn tid born).1]
    exact Int.natCast_nonneg _
  · have inside := (tracing.ordered.registered tid).mp born
    have present := List.getElem?_eq_getElem inside
    have count := tracing.headerCount_eq small unwrapped present
    have least := headerCount_le_totalExecuted present
    have bounded := counted.bounded
    rw [counted.total] at least
    rw [BitVec.ofNat_toNat, BitVec.setWidth_eq] at count
    have known : ∀ block ∈ pendingBlocks (t.pin.threads tid), block.2.toNat < 65536 := by
      intro block member
      obtain ⟨done, _, all⟩ := (tracing.data tid.toNat _ present).dynamic
      rw [BitVec.ofNat_toNat, BitVec.setWidth_eq] at all
      refine small tid block ?_
      rw [← all]
      exact List.mem_append_right done member
    have pending := instructionsOf_pendingBlocks known
    omega

theorem Unwrapped.step (step : ToolStep)
    (few : ∀ tid, instructionsOf (calledBlocks tid inputs) ≤ limit.toNat + 131070)
    (small : SmallBlocks (inputs ++ [step])) :
    Unwrapped (inputs ++ [step]) := by
  intro tid
  have below := few tid
  have known := small tid
  have range := limit.isLt
  by_cases quiet : ∀ u call, step ≠ .call u call
  · rw [(called_of_quiet tid inputs quiet).1]
    omega
  · simp only [not_forall, not_not] at quiet
    obtain ⟨u, call, rfl⟩ := quiet
    rw [(called_of_call tid inputs u call).1] at known ⊢
    rw [instructionsOf_append]
    split
    · rename_i own
      rw [if_pos own] at known
      have pending := instructionsOf_pendingBlocks fun block member =>
        known block (List.mem_append_right _ member)
      omega
    · rw [instructionsOf]
      omega

end Exact

/-- The counter after a run of a program that has a limit. -/
theorem counted_traceProgram {intrinsics : List IntrinsicInfo} {knobForceInstrumentation : Bool}
    {limit : BitVec 32} (limited : limit ≠ BitVec.allOnes 32) {inputs : List ToolStep}
    (behaves : Behaves intrinsics knobForceInstrumentation limit inputs)
    (small : SmallBlocks inputs) :
    CountedWithin limit
        (traceProgram intrinsics knobForceInstrumentation limit inputs).1.pin.tool ∧
      Unwrapped inputs := by
  have run := Machine.run_induction_of_meets Tool.step WellBehaved
    (P := fun t is log => Tracing t is log ∧
      (SmallBlocks is → CountedWithin limit t.pin.tool ∧ Unwrapped is))
    ⟨tracing_initial intrinsics knobForceInstrumentation limit, fun _ =>
      ⟨counted_initial intrinsics knobForceInstrumentation limit, fun _ =>
        (by decide : (0 : Int) < 18446744073709551616)⟩⟩
    (by
      intro t is log step before here
      refine ⟨before.1.step step here, fun small => ?_⟩
      have earlier := smallBlocks_of_append small
      obtain ⟨counted, unwrapped⟩ := before.2 earlier
      exact ⟨counted.step limited before.1 earlier step here,
        Unwrapped.step step (counted.called_le before.1 earlier unwrapped) small⟩)
    inputs behaves
  exact run.2 small

namespace TracedRun

variable (p : TracedRun)

/-- The instructions that all threads executed. -/
def totalInstructions : Nat :=
  ((List.range p.threadCount).map fun tid => (p.executed tid).length).sum

theorem length_instructions (e : Execution) :
    (e.instructions p.intrinsics).length = e.block.bbl.instructions.length := by
  rw [Execution.instructions, List.length_map, length_weave]

/-- The size of a block is the argument of the call that was inserted for it. -/
theorem numberInst_of_execution {tid : THREADID} {e : Execution} (member : e ∈ p.executions tid) :
    e.block.numberInstInBasicBlock.toNat = e.block.bbl.instructions.length ∧
      e.block.bbl.instructions.length < 65536 := by
  have cached : e.block ∈ p.tool.codeCache := p.instrumented tid e member
  have small := p.static_traced.small e.block cached
  obtain ⟨k, present, same⟩ := List.mem_iff_getElem.mp cached
  have inserted := (p.static_traced.inserted k present).2.1
  rw [same] at inserted
  refine ⟨?_, small⟩
  rw [inserted, BitVec.toNat_ofNat]
  exact Nat.mod_eq_of_lt (by omega)

variable {p}
  (blocks : ∀ tid, calledBlocks tid p.inputs = (p.executions tid).map fun e =>
    (e.block.basicBlockIndex, e.block.numberInstInBasicBlock))
include blocks

theorem smallBlocks : SmallBlocks p.inputs := by
  intro tid block member
  rw [blocks] at member
  obtain ⟨e, pass, rfl⟩ := List.mem_map.mp member
  obtain ⟨size, small⟩ := p.numberInst_of_execution pass
  dsimp only
  rwa [size]

theorem instructionsOf_called (tid : Nat) :
    instructionsOf (calledBlocks (BitVec.ofNat 32 tid) p.inputs) = (p.executed tid).length := by
  have each : ∀ passes : List Execution, (∀ e ∈ passes, e ∈ p.executions (BitVec.ofNat 32 tid)) →
      instructionsOf (passes.map fun e =>
        (e.block.basicBlockIndex, e.block.numberInstInBasicBlock)) =
      (passes.flatMap (Execution.instructions p.intrinsics)).length := by
    intro passes
    induction passes with
    | nil => exact fun _ => rfl
    | cons e passes ih =>
      intro known
      obtain ⟨size, small⟩ := p.numberInst_of_execution (known e (List.mem_cons_self ..))
      have rest := ih fun other member => known other (List.mem_cons_of_mem e member)
      rw [List.map_cons, instructionsOf, rest]
      dsimp only
      rw [toInt_small (by omega), size, List.flatMap_cons, List.length_append,
        p.length_instructions, Int.natCast_add]
  rw [blocks]
  exact each _ fun _ member => member

/-- The counter of a program that has a limit, where no thread is about to append a block. -/
theorem counter_eq (limited : p.knobNumberOfInstructions ≠ BitVec.allOnes 32)
    (resting : ∀ tid, pendingBlocks (p.tool.pin.threads tid) = []) :
    p.totalInstructions = p.tool.pin.tool.numberOfExecInst.toNat ∧
      p.totalInstructions ≤ p.knobNumberOfInstructions.toNat + 65535 ∧
      (p.tool.pin.tool.reachedMaximum = true ↔
        p.knobNumberOfInstructions.toNat < p.totalInstructions) := by
  have small := smallBlocks blocks
  obtain ⟨counted, unwrapped⟩ := counted_traceProgram limited p.behaves small
  have total : p.totalInstructions = totalExecuted p.tool.pin.tool.threadDataVec := by
    rw [totalInstructions, totalExecuted]
    congr 1
    apply List.ext_getElem?
    intro i
    rw [List.getElem?_map, List.getElem?_map]
    cases present : p.tool.pin.tool.threadDataVec[i]? with
    | none =>
      have outside := List.getElem?_eq_none_iff.mp present
      rw [List.getElem?_eq_none (by rw [List.length_range]; exact outside)]
      rfl
    | some d =>
      have inside : i < p.threadCount := (List.getElem?_eq_some_iff.mp present).1
      have count := p.tracing.headerCount_eq small unwrapped present
      rw [instructionsOf_called blocks, resting, instructionsOf, Int.add_zero] at count
      rw [List.getElem?_range inside]
      exact congrArg some (Int.ofNat_inj.mp count).symm
  have same := total.trans counted.total
  refine ⟨same, ?_, ?_⟩
  · rw [same]
    exact counted.bounded
  · rw [same]
    exact counted.reachedMaximum_iff limited

end TracedRun

section OneThread

theorem behaves_belowLimit : Behaves [] false 2 oneThreadInputs := by
  refine ⟨⟨rfl, rfl, rfl, rfl⟩, trivial, ?_, rfl,
    ⟨orderly_resume rfl rfl, withinLimit_of_below rfl⟩, rfl,
    ⟨orderly_resume rfl rfl, ?_⟩, ⟨orderly_resume rfl rfl, ?_⟩,
    ⟨orderly_resume rfl rfl, ?_⟩, rfl, ⟨orderly_resume rfl rfl, ?_⟩, trivial⟩
  · intro bbl listed
    cases List.mem_singleton.mp listed
    decide
  all_goals exact fun _ _ inside => nomatch inside

theorem ended_belowLimit :
    (traceProgram [] false 2 oneThreadInputs).1.pin.threads 0 = .ended := rfl

/-- The program of one thread, with as many instructions as the limit. -/
def belowLimit : ProgramRun where
  intrinsics := []
  knobForceInstrumentation := false
  knobNumberOfInstructions := 2
  inputs := oneThreadInputs
  behaves := behaves_belowLimit
  executions := oneThread.executions
  ended tid := by
    by_cases main : 0 = tid
    · subst main
      exact .inr ended_belowLimit
    · refine .inl (not_not.mp fun born => ?_)
      have first : tid.toNat < 1 :=
        ((tracing_traceProgram behaves_belowLimit).ordered.registered tid).mp born
      exact main (BitVec.eq_of_toNat_eq (Nat.lt_one_iff.mp first).symm)
  instrumented tid e member := oneThread.instrumented tid e member
  blocks := oneThread.blocks
  accesses := oneThread.accesses

end OneThread

/-- A program that runs to its end under a limit: the counter is exact, and the threads,
however they are interleaved, together pass the limit by less than a block. -/
theorem ended_program_within_limit (p : ProgramRun)
    (limited : p.knobNumberOfInstructions ≠ BitVec.allOnes 32) :
    p.tool.pin.tool.numberOfExecInst.toNat = p.totalInstructions ∧
      p.totalInstructions ≤ p.knobNumberOfInstructions.toNat + 65535 := by
  have resting : ∀ tid, pendingBlocks (p.tool.pin.threads tid) = [] := by
    intro tid
    rcases p.ended tid with same | same <;> rw [same] <;> rfl
  obtain ⟨counter, bounded, _⟩ := TracedRun.counter_eq p.blocks limited resting
  exact ⟨counter.symm, bounded⟩

theorem belowLimit_within_limit :
    belowLimit.tool.pin.tool.numberOfExecInst.toNat = belowLimit.totalInstructions ∧
      belowLimit.totalInstructions ≤ 2 + 65535 :=
  ended_program_within_limit belowLimit (by decide)

end Sinuca3.Guarantees
