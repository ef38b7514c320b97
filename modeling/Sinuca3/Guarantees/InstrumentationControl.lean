import Sinuca3.Guarantees.ThreadCallbacks
import Sinuca3.Source.TraceGenerator.ImageLoad

/-!
# What is instrumented

The calls at `BeginInstrumentationBlock` and `EndInstrumentationBlock` switch the
instrumentation on and off for all threads. No call that is inserted switches it off in one
thread: the loaders of the intrinsics start with two underscores, and only routines that
start with the prefix of the OpenMP runtime get as far as the calls for them.
-/
namespace Sinuca3.Guarantees
open Sinuca3.Source Lib

section Loaders

theorem underscores : octets "__" = [95, 95] := by decide

theorem copyInto_ok {α : Type} {n : Nat} {which : IntrinsicArray} {array array' : Vector α n}
    {place : Nat} {source : List α} (copied : copyInto which array place source = .ok array') :
    array'.toList = Block.copy array.toList place source := by
  unfold copyInto at copied
  split at copied
  · cases copied
    rfl
  · cases copied

/-- What `strcat` is given stays in front. -/
theorem strcat_front {n : Nat} {which : IntrinsicArray} {array array' : Vector (BitVec 8) n}
    {source : CString} (added : strcat which array source = .ok array')
    (front : ∃ rest, array.toList = 95 :: 95 :: rest) :
    ∃ rest, array'.toList = 95 :: 95 :: rest := by
  obtain ⟨rest, front⟩ := front
  rw [copyInto_ok added, front]
  exact ⟨_, rfl⟩

theorem bind_ok {ε α β : Type} {x : Except ε α} {next : α → Except ε β} {value : β}
    (h : (x >>= next) = .ok value) : ∃ a, x = .ok a ∧ next a = .ok value := by
  cases x with
  | error e => cases h
  | ok a => exact ⟨a, rfl, h⟩

/-- The name of a loader, whatever the option is. -/
theorem loaderName_front {pin : PinRegs} {turns : Nat} {value : CString} {i : IntrinsicInfo}
    (loaded : loadIntrinsic pin turns value = .ok i) :
    ∃ rest, i.loaderName.toList = 95 :: 95 :: rest := by
  unfold loadIntrinsic at loaded
  obtain ⟨r, _, loaded⟩ := bind_ok loaded
  obtain ⟨name, _, loaded⟩ := bind_ok loaded
  obtain ⟨readRegs, _, loaded⟩ := bind_ok loaded
  obtain ⟨writeRegs, _, loaded⟩ := bind_ok loaded
  obtain ⟨iName, _, loaded⟩ := bind_ok loaded
  obtain ⟨start, started, loaded⟩ := bind_ok loaded
  obtain ⟨named, appended, loaded⟩ := bind_ok loaded
  obtain ⟨loaderName, finished, loaded⟩ := bind_ok loaded
  obtain ⟨read, _, loaded⟩ := bind_ok loaded
  obtain ⟨write, _, loaded⟩ := bind_ok loaded
  obtain rfl := Except.ok.inj loaded
  refine strcat_front finished (strcat_front appended ?_)
  rw [copyInto_ok started, underscores]
  exact ⟨_, rfl⟩

/-- The names of the loaders of some options. -/
theorem loaderNames_front {pin : PinRegs} {turns : Nat} {values : List CString}
    {intrinsics : List IntrinsicInfo} (loaded : loadIntrinsics pin turns values = .ok intrinsics) :
    ∀ i ∈ intrinsics, ∃ rest, i.loaderName.toList = 95 :: 95 :: rest := by
  induction values generalizing intrinsics with
  | nil =>
    obtain rfl := Except.ok.inj loaded
    exact fun i none => by cases none
  | cons value values ih =>
    obtain ⟨first, one, loaded⟩ := bind_ok loaded
    obtain ⟨rest, more, loaded⟩ := bind_ok loaded
    obtain rfl := Except.ok.inj loaded
    intro i member
    rcases List.mem_cons.mp member with rfl | later
    · exact loaderName_front one
    · exact ih more i later

end Loaders

section Routines

variable {intrinsics : List IntrinsicInfo}

/-- What the loops over the vectors insert. -/
theorem treatThreadEvents_inserted (rtnName : CString) (r : TreatedRtn) :
    ∀ c ∈ (treatThreadEvents rtnName r).inserted,
      c ∈ r.inserted ∨
        ∃ evType isMasterThreadEv, c.call = .onThreadEvent evType isMasterThreadEv := by
  have treat : ∀ (names : List CString) (point : IPOINT) (evType : BitVec 32) (master : Bool)
      (r : TreatedRtn),
      ∀ c ∈ (r.treat names ⟨point, .onThreadEvent evType master⟩ rtnName).inserted,
      c ∈ r.inserted ∨ ∃ evType isMasterThreadEv,
        c.call = .onThreadEvent evType isMasterThreadEv := by
    intro names point evType master r c member
    unfold TreatedRtn.treat at member
    split at member
    · rcases List.mem_append.mp member with old | new
      · exact .inl old
      · rw [List.mem_singleton.mp new]
        exact .inr ⟨evType, master, rfl⟩
    · exact .inl member
  intro c member
  unfold treatThreadEvents at member
  rcases treat _ _ _ _ _ c member with member | event
  · rcases treat _ _ _ _ _ c member with member | event
    · rcases treat _ _ _ _ _ c member with member | event
      · rcases treat _ _ _ _ _ c member with member | event
        · exact treat _ _ _ _ _ c member
        · exact .inr event
      · exact .inr event
    · exact .inr event
  · exact .inr event

/-- No routine of the OpenMP runtime is a loader. -/
theorem treatLoader_nil (loaders : ∀ i ∈ intrinsics, ∃ rest, i.loaderName.toList = 95 :: 95 :: rest)
    {rtnName : CString} (omp : rtnName.take 4 = octets "gomp" ∨ rtnName.take 4 = octets "GOMP") :
    treatLoader intrinsics rtnName = [] := by
  unfold treatLoader
  rw [if_neg]
  intro found
  obtain ⟨i, member, same⟩ := List.any_eq_true.mp found
  obtain ⟨rest, front⟩ := loaders i member
  rw [of_decide_eq_true same, front] at omp
  have first : octets "gomp" = [103, 111, 109, 112] ∧ octets "GOMP" = [71, 79, 77, 80] := by decide
  rw [first.1, first.2] at omp
  rcases omp with lower | upper
  · cases lower
  · cases upper

/-- All that is inserted at a routine. -/
theorem treatRoutine_eq
    (loaders : ∀ i ∈ intrinsics, ∃ rest, i.loaderName.toList = 95 :: 95 :: rest)
    (rtnName : CString) :
    rtnName = instStart ∧ treatRoutine intrinsics rtnName = [⟨.before, .initInstrumentation⟩] ∨
      rtnName = instEnd ∧ treatRoutine intrinsics rtnName = [⟨.before, .stopInstrumentation⟩] ∨
      rtnName ≠ instStart ∧ rtnName ≠ instEnd ∧ ∀ c ∈ treatRoutine intrinsics rtnName,
        ∃ evType isMasterThreadEv, c.call = .onThreadEvent evType isMasterThreadEv := by
  by_cases begins : rtnName = instStart
  · subst begins
    exact .inl ⟨rfl, rfl⟩
  · by_cases ends : rtnName = instEnd
    · subst ends
      exact .inr (.inl ⟨rfl, rfl⟩)
    · refine .inr (.inr ⟨begins, ends, fun c member => ?_⟩)
      have other : treatBlocks rtnName = {} := by
        unfold treatBlocks
        rw [if_neg begins, if_neg ends]
      unfold treatRoutine at member
      rw [other] at member
      dsimp only at member
      split at member
      · cases member
      · rename_i omp
        rw [treatLoader_nil loaders (by tauto), List.append_nil] at member
        rcases treatThreadEvents_inserted rtnName {} c member with none | event
        · cases none
        · exact event

end Routines

section Threads

variable (t : Pintool)

@[simp] theorem length_append (i : Nat)
    (write : Pintool.ThreadData → Bool × Pintool.ThreadData) :
    (t.append i write).2.1.threadDataVec.length = t.threadDataVec.length := by
  unfold Pintool.append
  split
  · rfl
  · split
    · rfl
    · exact List.length_set

theorem length_broadcast (evType : BitVec 32) (stops : Bool) (is : List Nat) :
    (t.broadcast evType stops is).2.1.threadDataVec.length = t.threadDataVec.length := by
  induction is generalizing t with
  | nil => rfl
  | cons i is ih =>
    unfold Pintool.broadcast
    dsimp only
    split
    · exact length_append t i _
    · rw [ih, length_append]

theorem length_onThreadEvent (tid : THREADID) (evType : BitVec 32) (isMasterThreadEv : Bool) :
    (t.onThreadEvent tid evType isMasterThreadEv).1.threadDataVec.length =
      t.threadDataVec.length := by
  unfold Pintool.onThreadEvent
  dsimp only
  split
  · exact length_append t _ _
  · split
    · exact (length_broadcast _ _ _ _).trans (length_append t _ _)
    · exact length_append t _ _

theorem length_appendToDynamicTrace (tid : THREADID) (bblId numInst : BitVec 32) :
    (t.appendToDynamicTrace tid bblId numInst).1.threadDataVec.length =
      t.threadDataVec.length := by
  unfold Pintool.appendToDynamicTrace
  split
  · exact length_broadcast t _ _ _
  · exact length_append _ _ _

theorem length_resume (s : PinState) (tid : THREADID) (callback : Callback) :
    (s.resume tid callback).1.tool.threadDataVec.length = s.tool.threadDataVec.length := by
  unfold PinState.resume
  split
  · rfl
  · exact length_append _ _ _
  · split
    · rfl
    · exact List.length_modify ..
  · split
    · rfl
    · exact length_appendToDynamicTrace _ _ _ _
  · split
    · rfl
    · exact length_onThreadEvent _ _ _ _

/-- Only the start of a thread adds to the data of threads. -/
theorem length_step (s : PinState) (step : PinStep) :
    (s.step step).1.tool.threadDataVec.length = s.tool.threadDataVec.length +
      match step with
      | .onThreadStart _ _ _ => if s.tool.lockIsKept then 0 else 1
      | _ => 0 := by
  cases step with
  | onThreadStart tid dynamicOpens memoryOpens =>
    unfold PinState.step
    dsimp only
    split
    · rfl
    · exact List.length_append
  | call tid callback =>
    unfold PinState.step PinState.call
    dsimp only
    split
    · rfl
    · split <;> rfl
  | resume tid =>
    unfold PinState.step
    dsimp only
    split
    · exact length_resume _ _ _
    · rfl

/-- Where threads registered in order, the data of those that have started is there. -/
structure Numbered (s : PinState) : Prop where
  born : ∀ tid, s.threads tid ≠ .unborn → tid.toNat < s.tool.threadDataVec.length
  few : s.tool.threadDataVec.length ≤ 4294967296

/-- Threads register in order, and only those that have started call. -/
def Numbers (s : PinState) : PinStep → Prop
  | .onThreadStart tid _ _ => s.tool.threadDataVec.length = tid.toNat
  | .call tid _ => s.threads tid ≠ .unborn
  | .resume _ => True

/-- Only the state of a thread that has started is set. -/
theorem started_of_setThread {s : PinState} {t : Pintool} {tid other : THREADID}
    {thread : PinThread} (started : s.threads tid ≠ .unborn)
    (here : ({ s with tool := t }.setThread tid thread).threads other ≠ .unborn) :
    s.threads other ≠ .unborn := by
  rw [PinState.setThread_threads] at here
  split at here
  · rename_i same
    rwa [same]
  · exact here

theorem started_of_call {s : PinState} {tid other : THREADID} {callback : Callback}
    (started : s.threads tid ≠ .unborn)
    (here : (s.call tid callback).1.threads other ≠ .unborn) : s.threads other ≠ .unborn := by
  unfold PinState.call at here
  split at here
  · exact started_of_setThread started here
  · split at here
    · exact started_of_setThread started here
    · exact here

theorem started_of_resume {s : PinState} {tid other : THREADID} {callback : Callback}
    (started : s.threads tid ≠ .unborn)
    (here : (s.resume tid callback).1.threads other ≠ .unborn) : s.threads other ≠ .unborn := by
  unfold PinState.resume at here
  split at here
  · exact started_of_setThread started here
  · exact started_of_setThread started here
  all_goals
    split at here
    · exact here
    · exact started_of_setThread started here

/-- Only the thread of a step changes its state, and it has started. -/
theorem threads_step (s : PinState) (step : PinStep) (numbers : Numbers s step)
    (other : THREADID) (here : (s.step step).1.threads other ≠ .unborn) :
    s.threads other ≠ .unborn ∨ s.tool.lockIsKept = false ∧
      ∃ dynamicOpens memoryOpens, step = .onThreadStart other dynamicOpens memoryOpens := by
  cases step with
  | onThreadStart tid dynamicOpens memoryOpens =>
    unfold PinState.step at here
    dsimp only at here
    split at here
    · exact .inl here
    · rename_i free
      rw [PinState.setThread_threads] at here
      split at here
      · rename_i same
        rw [same]
        exact .inr ⟨by simpa using free, _, _, rfl⟩
      · exact .inl here
  | call tid callback => exact .inl (started_of_call numbers here)
  | resume tid =>
    left
    unfold PinState.step at here
    dsimp only at here
    split at here
    · rename_i callback inside
      have started : s.threads tid ≠ .unborn := by
        rw [inside]
        nofun
      exact started_of_resume started here
    · exact here

theorem started_call {s : PinState} {tid : THREADID} (callback : Callback)
    (started : s.threads tid ≠ .unborn) : (s.call tid callback).1.threads tid ≠ .unborn := by
  unfold PinState.call
  split
  · rw [PinState.setThread_threads, if_pos rfl]
    nofun
  · split
    · rw [PinState.setThread_threads, if_pos rfl]
      nofun
    · exact started

theorem Numbered.step {s : PinState} (before : Numbered s) (step : PinStep)
    (numbers : Numbers s step) : Numbered (s.step step).1 := by
  have length := length_step s step
  constructor
  · intro tid here
    rcases threads_step s step numbers tid here with old | ⟨free, _, _, rfl⟩
    · have inside := before.born tid old
      omega
    · change s.tool.threadDataVec.length = tid.toNat at numbers
      rw [free] at length
      simp only [Bool.false_eq_true, if_false] at length
      omega
  · cases step with
    | onThreadStart tid dynamicOpens memoryOpens =>
      have small := tid.isLt
      change s.tool.threadDataVec.length = tid.toNat at numbers
      dsimp only at length
      split at length <;> omega
    | call tid callback => exact length ▸ before.few
    | resume tid => exact length ▸ before.few

theorem Numbered.wasThreadCreated {s : PinState} (numbered : Numbered s) {tid : THREADID}
    (inside : tid.toNat < s.tool.threadDataVec.length) : s.tool.wasThreadCreated tid = true := by
  have few := numbered.few
  rw [Pintool.wasThreadCreated, decide_eq_true_iff, BitVec.lt_def, BitVec.toNat_sub,
    BitVec.toNat_ofNat, BitVec.toNat_setWidth]
  change 0 < _
  omega

end Threads

section Runs

/-- Every thread that was registered has its flag set. -/
def AllOn (t : Tool) : Prop :=
  t.threadIsInstrumentating = List.replicate t.pin.tool.threadDataVec.length true

/-- What most steps leave alone. -/
structure KeepsControl (t t' : Tool) : Prop where
  knobForceInstrumentation : t'.knobForceInstrumentation = t.knobForceInstrumentation
  intrinsics : t'.intrinsics = t.intrinsics
  isInstrumentating : t'.isInstrumentating = t.isInstrumentating
  wasInitInstrumentationCalled : t'.wasInitInstrumentationCalled = t.wasInitInstrumentationCalled
  allOn : AllOn t → AllOn t'

theorem KeepsControl.refl (t : Tool) : KeepsControl t t := ⟨rfl, rfl, rfl, rfl, id⟩

theorem KeepsControl.trans {t t' t'' : Tool} (first : KeepsControl t t')
    (second : KeepsControl t' t'') : KeepsControl t t'' where
  knobForceInstrumentation :=
    second.knobForceInstrumentation.trans first.knobForceInstrumentation
  intrinsics := second.intrinsics.trans first.intrinsics
  isInstrumentating := second.isInstrumentating.trans first.isInstrumentating
  wasInitInstrumentationCalled :=
    second.wasInitInstrumentationCalled.trans first.wasInitInstrumentationCalled
  allOn := second.allOn ∘ first.allOn

theorem pinStep_keeps (t : Tool) (step : PinStep)
    (same : (t.pin.step step).1.tool.threadDataVec.length = t.pin.tool.threadDataVec.length) :
    KeepsControl t (t.pinStep step).1 := by
  refine ⟨rfl, rfl, rfl, rfl, fun allOn => ?_⟩
  unfold AllOn Tool.pinStep
  rw [same]
  exact allOn

theorem onThreadStart_keeps (t : Tool) (tid : THREADID) (dynamicOpens memoryOpens : Bool) :
    KeepsControl t (t.step (.onThreadStart tid dynamicOpens memoryOpens)).1 := by
  have grown := length_step t.pin (.onThreadStart tid dynamicOpens memoryOpens)
  unfold Tool.step
  dsimp only at grown ⊢
  split
  · rename_i kept
    rw [if_pos kept] at grown
    exact pinStep_keeps t _ grown
  · rename_i free
    rw [if_neg free] at grown
    refine ⟨rfl, rfl, rfl, rfl, fun allOn => ?_⟩
    unfold AllOn Tool.pinStep at *
    dsimp only
    rw [grown, allOn, List.replicate_succ']

theorem onTrace_keeps (t : Tool) (tid : THREADID) (trace : TRACE) :
    KeepsControl t (t.step (.onTrace tid trace)).1 := by
  unfold Tool.step Tool.onTrace
  dsimp only
  split
  · exact ⟨rfl, rfl, rfl, rfl, id⟩
  · exact .refl t

theorem call_keeps (t : Tool) (tid : THREADID) (call : AnalysisCall) :
    KeepsControl t (t.step (.call tid call)).1 :=
  pinStep_keeps t (.call tid call.callback) (length_step t.pin _)

theorem resume_keeps (t : Tool) (tid : THREADID) : KeepsControl t (t.step (.resume tid)).1 :=
  pinStep_keeps t (.resume tid) (length_step t.pin _)

/-- Calls of `OnThreadEvent`. -/
theorem events_keep (t : Tool) (tid : THREADID) (calls : List InsertedCall)
    (events : ∀ c ∈ calls, ∃ evType isMasterThreadEv,
      c.call = .onThreadEvent evType isMasterThreadEv) :
    KeepsControl t (Machine.run Tool.step t (calls.map (·.call.step tid))).1 := by
  induction calls generalizing t with
  | nil => exact .refl t
  | cons c calls ih =>
    obtain ⟨evType, master, event⟩ := events c (List.mem_cons_self ..)
    rw [List.map_cons, event, Machine.run_cons]
    exact (call_keeps t tid _).trans
      (ih _ fun other member => events other (List.mem_cons_of_mem _ member))

/-- A block begins, or ends. -/
def marker : ProgramStep → Option Bool
  | .routine _ .before rtnName =>
    if rtnName = instStart then some true else if rtnName = instEnd then some false else none
  | _ => none

def beginsBlock (step : ProgramStep) : Bool := marker step = some true

/-- The last block that began has not ended. -/
def insideBlock (steps : List ProgramStep) : Bool := (steps.filterMap marker).getLast? = some true

/-- The tool after the steps of a program. -/
structure Controlled (forced : Bool) (intrinsics : List IntrinsicInfo)
    (steps : List ProgramStep) (t : Tool) : Prop where
  knobForceInstrumentation : t.knobForceInstrumentation = forced
  intrinsics : t.intrinsics = intrinsics
  isInstrumentating : t.isInstrumentating = (forced || insideBlock steps)
  wasInitInstrumentationCalled :
    t.wasInitInstrumentationCalled = (forced || steps.any beginsBlock)
  allOn : AllOn t

variable {forced : Bool} {intrinsics : List IntrinsicInfo} {steps : List ProgramStep} {t : Tool}

theorem Controlled.keep (before : Controlled forced intrinsics steps t) {t' : Tool}
    (keeps : KeepsControl t t') {step : ProgramStep} (plain : marker step = none) :
    Controlled forced intrinsics (steps ++ [step]) t' where
  knobForceInstrumentation :=
    keeps.knobForceInstrumentation.trans before.knobForceInstrumentation
  intrinsics := keeps.intrinsics.trans before.intrinsics
  isInstrumentating := by
    rw [keeps.isInstrumentating, before.isInstrumentating, insideBlock, insideBlock,
      List.filterMap_append, List.filterMap_cons_none plain, List.filterMap_nil, List.append_nil]
  wasInitInstrumentationCalled := by
    rw [keeps.wasInitInstrumentationCalled, before.wasInitInstrumentationCalled, List.any_append]
    simp [beginsBlock, plain]
  allOn := keeps.allOn before.allOn

theorem insideBlock_concat {step : ProgramStep} {flag : Bool} (marks : marker step = some flag) :
    insideBlock (steps ++ [step]) = flag := by
  unfold insideBlock
  rw [List.filterMap_append, List.filterMap_cons_some marks, List.filterMap_nil]
  cases flag <;> simp

theorem any_of_insideBlock (inside : insideBlock steps = true) :
    steps.any beginsBlock = true := by
  have last := List.mem_of_getLast? (of_decide_eq_true inside)
  obtain ⟨step, member, marks⟩ := List.mem_filterMap.mp last
  exact List.any_eq_true.mpr ⟨step, member, decide_eq_true marks⟩

theorem Controlled.begins (before : Controlled forced intrinsics steps t) {step : ProgramStep}
    (marks : marker step = some true) :
    Controlled forced intrinsics (steps ++ [step]) t.initInstrumentation := by
  have called : (steps ++ [step]).any beginsBlock = true := by simp [beginsBlock, marks]
  unfold Tool.initInstrumentation
  split
  · rename_i on
    rw [before.isInstrumentating] at on
    have wasCalled : (forced || steps.any beginsBlock) = true := by
      cases forced with
      | true => rfl
      | false => exact any_of_insideBlock on
    refine ⟨before.knobForceInstrumentation, before.intrinsics, ?_, ?_, before.allOn⟩
    · rw [insideBlock_concat marks, Bool.or_true, before.isInstrumentating, on]
    · rw [called, Bool.or_true, before.wasInitInstrumentationCalled, wasCalled]
  · refine ⟨before.knobForceInstrumentation, before.intrinsics, ?_, ?_, before.allOn⟩
    · rw [insideBlock_concat marks, Bool.or_true]
    · rw [called, Bool.or_true]

theorem Controlled.ends (before : Controlled forced intrinsics steps t) {step : ProgramStep}
    (marks : marker step = some false) :
    Controlled forced intrinsics (steps ++ [step]) t.stopInstrumentation := by
  have same : (steps ++ [step]).any beginsBlock = steps.any beginsBlock := by
    simp [beginsBlock, marks]
  have on := before.isInstrumentating
  have knob := before.knobForceInstrumentation
  unfold Tool.stopInstrumentation
  cases forced with
  | true =>
    rw [if_pos (by rw [knob, Bool.or_true])]
    refine ⟨knob, before.intrinsics, ?_, ?_, before.allOn⟩
    · rw [on, Bool.true_or, Bool.true_or]
    · rw [same]
      exact before.wasInitInstrumentationCalled
  | false =>
    rw [Bool.false_or] at on
    split
    · rename_i off
      refine ⟨knob, before.intrinsics, ?_, ?_, before.allOn⟩
      · rw [insideBlock_concat marks, Bool.or_false]
        simpa [knob] using off
      · rw [same]
        exact before.wasInitInstrumentationCalled
    · refine ⟨knob, before.intrinsics, ?_, ?_, before.allOn⟩
      · rw [insideBlock_concat marks, Bool.or_false]
      · rw [same]
        exact before.wasInitInstrumentationCalled

/-- A step of the program. -/
theorem Controlled.step
    (loaders : ∀ i ∈ intrinsics, ∃ rest, i.loaderName.toList = 95 :: 95 :: rest)
    (before : Controlled forced intrinsics steps t) (step : ProgramStep) :
    Controlled forced intrinsics (steps ++ [step]) (t.programStep step).1 := by
  cases step with
  | onThreadStart tid dynamicOpens memoryOpens =>
    exact before.keep (onThreadStart_keeps t tid dynamicOpens memoryOpens) rfl
  | onTrace tid trace => exact before.keep (onTrace_keeps t tid trace) rfl
  | appendToDynamicTrace tid bblId numInst => exact before.keep (call_keeps t tid _) rfl
  | appendToMemTrace tid accessInfo => exact before.keep (call_keeps t tid _) rfl
  | onThreadFini tid => exact before.keep (call_keeps t tid _) rfl
  | resume tid => exact before.keep (resume_keeps t tid) rfl
  | routine tid point rtnName =>
    change Controlled forced intrinsics _ (Machine.run Tool.step t
      (((treatRoutine t.intrinsics rtnName).filter (·.point = point)).map (·.call.step tid))).1
    rw [before.intrinsics]
    rcases treatRoutine_eq loaders rtnName with
      ⟨rfl, inserted⟩ | ⟨rfl, inserted⟩ | ⟨begins, ends, events⟩
    · rw [inserted]
      cases point with
      | before => exact before.begins rfl
      | after => exact before.keep (.refl t) rfl
    · rw [inserted]
      cases point with
      | before => exact before.ends rfl
      | after => exact before.keep (.refl t) rfl
    · refine before.keep ?_ ?_
      · apply events_keep
        intro c member
        exact events c (List.mem_filter.mp member).1
      · cases point with
        | before => simp only [marker, if_neg begins, if_neg ends]
        | after => rfl

theorem Controlled.run
    (loaders : ∀ i ∈ intrinsics, ∃ rest, i.loaderName.toList = 95 :: 95 :: rest)
    (limit : BitVec 32) (steps : List ProgramStep) :
    Controlled forced intrinsics steps
      (Machine.run Tool.programStep (.initial intrinsics forced limit) steps).1 := by
  have start : Controlled forced intrinsics [] (.initial intrinsics forced limit) :=
    ⟨rfl, rfl, (Bool.or_false _).symm, (Bool.or_false _).symm, rfl⟩
  exact Machine.run_induction Tool.programStep
    (P := fun t steps _ => Controlled forced intrinsics steps t) start
    (fun _ _ _ step before => before.step loaders step) steps

/-- Pin starts a thread once and in the order of the ids, only threads that are running and
in no callback go on, and no loop over all threads comes to one that has ended. -/
def Disciplined (t : Tool) : ProgramStep → Prop
  | .onThreadStart tid dynamicOpens memoryOpens =>
    t.pin.threads tid = .unborn ∧ Orderly t.pin (.onThreadStart tid dynamicOpens memoryOpens)
  | .routine tid _ _ => t.pin.threads tid = .running
  | .onTrace tid _ => t.pin.threads tid = .running
  | .appendToDynamicTrace tid _ _ => t.pin.threads tid = .running
  | .appendToMemTrace tid _ => t.pin.threads tid = .running
  | .onThreadFini tid => t.pin.threads tid = .running
  | .resume tid => Orderly t.pin (.resume tid)

/-- Calls of a thread that has started. -/
theorem numbered_calls {t : Tool} (before : Numbered t.pin) {tid : THREADID}
    (started : t.pin.threads tid ≠ .unborn) (calls : List InsertedCall) :
    Numbered (Machine.run Tool.step t (calls.map (·.call.step tid))).1.pin := by
  induction calls generalizing t with
  | nil => exact before
  | cons c calls ih =>
    rw [List.map_cons, Machine.run_cons]
    have kept : ∀ t' : Tool, t'.pin = t.pin →
        Numbered (Machine.run Tool.step t' (calls.map (·.call.step tid))).1.pin := fun t' same =>
      ih (same ▸ before) (same ▸ started)
    cases c.call with
    | initInstrumentation =>
      apply kept
      change t.initInstrumentation.pin = t.pin
      unfold Tool.initInstrumentation
      split <;> rfl
    | stopInstrumentation =>
      apply kept
      change t.stopInstrumentation.pin = t.pin
      unfold Tool.stopInstrumentation
      split <;> rfl
    | onThreadEvent evType isMasterThreadEv =>
      exact ih (before.step _ started) (started_call _ started)
    | stopInstrumentationInThread =>
      apply kept
      change (t.setThreadInstrumentating tid false).pin = t.pin
      unfold Tool.setThreadInstrumentating
      split <;> rfl
    | resumeInstrumentationInThread =>
      apply kept
      change (t.setThreadInstrumentating tid true).pin = t.pin
      unfold Tool.setThreadInstrumentating
      split <;> rfl

theorem numbered_onTrace {t : Tool} (before : Numbered t.pin) (tid : THREADID) (trace : TRACE) :
    Numbered (t.onTrace tid trace).pin := by
  unfold Tool.onTrace
  split
  · exact ⟨before.born, before.few⟩
  · exact before

theorem numbered_programStep {t : Tool} (before : Numbered t.pin) (step : ProgramStep)
    (disciplined : Disciplined t step) : Numbered (t.programStep step).1.pin := by
  have running : ∀ {tid : THREADID}, t.pin.threads tid = .running → t.pin.threads tid ≠ .unborn :=
    fun here => by
      rw [here]
      nofun
  cases step with
  | onThreadStart tid dynamicOpens memoryOpens =>
    have next := before.step (.onThreadStart tid dynamicOpens memoryOpens) disciplined.2
    change Numbered (t.step (.onThreadStart tid dynamicOpens memoryOpens)).1.pin
    unfold Tool.step
    dsimp only
    split
    · exact next
    · exact next
  | routine tid point rtnName => exact numbered_calls before (running disciplined) _
  | onTrace tid trace => exact numbered_onTrace before tid trace
  | appendToDynamicTrace tid bblId numInst => exact before.step _ (running disciplined)
  | appendToMemTrace tid accessInfo => exact before.step _ (running disciplined)
  | onThreadFini tid => exact before.step _ (running disciplined)
  | resume tid => exact before.step (.resume tid) trivial

/-- For every program, every list of intrinsics that could be loaded and every run: the code
of a thread that is running is instrumented if and only if the instrumentation is forced or
the last block that any thread began has not been ended, and the code is of a routine that
is not ignored. The loader of an intrinsic is instrumented like any other. -/
theorem instrumented_iff {pin : PinRegs} {turns : Nat} {values : List CString}
    {intrinsics : List IntrinsicInfo} (loaded : loadIntrinsics pin turns values = .ok intrinsics)
    (forced : Bool) (limit : BitVec 32) (steps : List ProgramStep)
    (disciplined : Machine.Meets Tool.programStep Disciplined (.initial intrinsics forced limit)
      steps) :
    let t := (Machine.run Tool.programStep (.initial intrinsics forced limit) steps).1
    (∀ tid trace, t.pin.threads tid = .running →
      (t.instruments tid trace = true ↔ (forced = true ∨ insideBlock steps = true) ∧
        ∃ rtnName, trace.rtnName = some rtnName ∧ rtnName ∉ ignoreRtnsVec)) ∧
      (t.wasInitInstrumentationCalled = true ↔
        forced = true ∨ ∃ step ∈ steps, marker step = some true) := by
  intro t
  have control : Controlled forced intrinsics steps t :=
    Controlled.run (loaderNames_front loaded) limit steps
  have numbered : Numbered t.pin := by
    refine Machine.run_induction_of_meets Tool.programStep Disciplined
      (P := fun t _ _ => Numbered t.pin) ⟨fun tid here => absurd rfl here, Nat.zero_le _⟩ ?_
      steps disciplined
    intro s _ _ step before here
    exact numbered_programStep before step here
  constructor
  · intro tid trace running
    have inside : tid.toNat < t.pin.tool.threadDataVec.length := by
      apply numbered.born
      rw [running]
      nofun
    have registered : t.threadIsInstrumentating.getD tid.toNat false = true := by
      rw [control.allOn]
      simp [inside]
    unfold Tool.instruments
    rw [control.isInstrumentating, registered, numbered.wasThreadCreated inside, Bool.and_true,
      Bool.and_true, Bool.and_eq_true, Bool.or_eq_true]
    refine and_congr_right fun _ => ?_
    cases trace.rtnName with
    | none => simp
    | some rtnName => simp
  · rw [control.wasInitInstrumentationCalled, Bool.or_eq_true, List.any_eq_true]
    simp only [beginsBlock, decide_eq_true_eq]

/-- A block in which the loader of an intrinsic runs. -/
theorem loader_instrumented : ∃ intrinsics,
    loadIntrinsics ⟨fun _ => 0, 0⟩ 20 [octets "fma:rax:rbx"] = .ok intrinsics ∧
      (Machine.run Tool.programStep (.initial intrinsics false (BitVec.allOnes 32))
        [.onThreadStart 0 true true, .routine 0 .before instStart,
          .routine 0 .before (octets "__fmaLoader")]).1.instruments 0
        { rtnName := some (octets "__fmaLoader"), bbls := [] } = true := by
  have loaded : loadIntrinsics ⟨fun _ => 0, 0⟩ 20 [octets "fma:rax:rbx"] = .ok _ := rfl
  have disciplined : ∀ intrinsics, Machine.Meets Tool.programStep Disciplined
      (.initial intrinsics false (BitVec.allOnes 32))
      [.onThreadStart 0 true true, .routine 0 .before instStart,
        .routine 0 .before (octets "__fmaLoader")] := fun _ => ⟨⟨rfl, rfl⟩, rfl, rfl, trivial⟩
  refine ⟨_, loaded, ((instrumented_iff loaded false (BitVec.allOnes 32) _
    (disciplined _)).1 0 _ rfl).mpr ?_⟩
  exact ⟨.inr rfl, _, rfl, by decide⟩

end Runs

end Sinuca3.Guarantees
