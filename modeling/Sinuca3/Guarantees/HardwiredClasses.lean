import Mathlib.Data.List.Forall2
import Sinuca3.Source.StdComponents.Predictors

/-!
# The classes of the hardwired predictor

Each class of instructions has a flag and a counter. The predictor is compared with them
over any number of cycles: what it answers on every connection, and what it counts.
-/
namespace Sinuca3.Guarantees
open Sinuca3.Source Lib

/-- Whether instructions of a class are to be predicted. -/
def classFlag (p : HardwiredPredictor) : Branch → Bool
  | .syscall => p.syscall
  | .call => p.call
  | .sysret => p.sysret
  | .ret => p.ret
  | .uncond => p.uncond
  | .cond => p.cond
  | .none => p.noBranch

def classCounter (p : HardwiredPredictor) : Branch → Nat
  | .syscall => p.numberOfSyscalls
  | .call => p.numberOfCalls
  | .sysret => p.numberOfSysrets
  | .ret => p.numberOfRets
  | .uncond => p.numberOfUnconds
  | .cond => p.numberOfConds
  | .none => p.numberOfNoBranchs

/-- The class of the instruction a packet asks about. -/
def branchClass (packet : PredictorPacket) : Branch := packet.instruction.staticInfo.branchType

/-- `Respond` takes every packet for a query that is no update. -/
def isQuery (packet : PredictorPacket) : Bool :=
  !(packet.type = .requestTargetUpdate ∨ packet.type = .requestDirectionUpdate)

def queries (packets : List PredictorPacket) : List PredictorPacket := packets.filter isQuery

/-- The target is the next instruction if the flag of the class says so, and only then. -/
def AnsweredAsConfigured (p : HardwiredPredictor) (query response : PredictorPacket) : Prop :=
  response.instruction = query.instruction ∧
    (response.target = query.instruction.nextInstruction ↔ classFlag p (branchClass query) = true)

instance (p : HardwiredPredictor) (query response : PredictorPacket) :
    Decidable (AnsweredAsConfigured p query response) :=
  inferInstanceAs (Decidable (_ ∧ _))

/-- Classes for which the inverted test of `Respond` makes no difference to the answer. -/
def Respected (p : HardwiredPredictor) (branchType : Branch) : Prop :=
  if branchType = .none then p.noBranch = true else classFlag p branchType = p.noBranch

/-- The response to a query. -/
def responseOf (p : HardwiredPredictor) (query : PredictorPacket) : PredictorPacket :=
  HardwiredPredictor.answer (p.classify (branchClass query)).1 query.instruction

theorem classify_predict (p : HardwiredPredictor) (branchType : Branch) :
    (p.classify branchType).1 = if branchType = .none then true else p.noBranch := by
  unfold HardwiredPredictor.classify
  cases branchType <;> rfl

theorem classify_flag (p : HardwiredPredictor) (branchType other : Branch) :
    classFlag (p.classify branchType).2 other = classFlag p other := by
  unfold HardwiredPredictor.classify
  cases branchType <;> cases other <;> rfl

/-- Every branch is counted as none, and what is none is not counted. -/
theorem classify_counter (p : HardwiredPredictor) (branchType other : Branch) :
    classCounter (p.classify branchType).2 other =
      classCounter p other + if other = .none ∧ branchType ≠ .none then 1 else 0 := by
  unfold HardwiredPredictor.classify
  cases branchType <;> cases other <;> rfl

theorem answeredAsConfigured_iff (p : HardwiredPredictor) (query : PredictorPacket) :
    AnsweredAsConfigured p query (responseOf p query) ↔ Respected p (branchClass query) := by
  unfold AnsweredAsConfigured Respected responseOf HardwiredPredictor.answer
  rw [classify_predict]
  dsimp only
  rw [and_iff_right rfl]
  by_cases none : branchClass query = .none
  · simp [none, classFlag]
  · rw [if_neg none, if_neg none]
    cases p.noBranch <;> cases classFlag p (branchClass query) <;> simp

/-- The flags never change. -/
def SameFlags (p q : HardwiredPredictor) : Prop :=
  ∀ branchType, classFlag q branchType = classFlag p branchType

theorem SameFlags.responseOf_eq {p q : HardwiredPredictor} (same : SameFlags p q)
    (query : PredictorPacket) : responseOf q query = responseOf p query := by
  have noBranch : q.noBranch = p.noBranch := same .none
  unfold responseOf
  rw [classify_predict, classify_predict, noBranch]

theorem respond_eq (p : HardwiredPredictor) (packet : PredictorPacket) :
    (p.respond packet).2 = (if isQuery packet then some (responseOf p packet) else none) ∧
      SameFlags p (p.respond packet).1 ∧
      ∀ branchType, classCounter (p.respond packet).1 branchType =
        classCounter p branchType +
          if branchType = .none ∧ isQuery packet ∧ branchClass packet ≠ .none then 1 else 0 := by
  unfold HardwiredPredictor.respond
  by_cases update : packet.type = .requestTargetUpdate ∨ packet.type = .requestDirectionUpdate
  · have ignored : isQuery packet = false := by simp [isQuery, update]
    rw [if_pos update, ignored]
    simp [SameFlags]
  · have asks : isQuery packet = true := by simp [isQuery, update]
    rw [if_neg update, asks]
    refine ⟨rfl, fun branchType => ?_, fun branchType => ?_⟩
    · rw [← classify_flag p (branchClass packet)]
      cases branchType <;> rfl
    · simp only [true_and]
      rw [← classify_counter]
      cases branchType <;> rfl

/-- What handling packets adds to the counters. -/
theorem afterRequests_classCounter (p : HardwiredPredictor) (packets : List PredictorPacket)
    (branchType : Branch) :
    classCounter (afterRequests HardwiredPredictor.respond p packets) branchType =
      classCounter p branchType +
        if branchType = .none then
          (queries packets).countP fun query => branchClass query ≠ .none
        else 0 := by
  induction packets generalizing p with
  | nil => simp [afterRequests, queries]
  | cons packet packets ih =>
    rw [afterRequests_cons, ih, (respond_eq p packet).2.2]
    by_cases none : branchType = .none
    · by_cases asks : isQuery packet
      · simp only [none, queries, asks, List.filter_cons_of_pos, List.countP_cons, true_and,
          decide_not, if_true]
        by_cases branch : branchClass packet = .none
        · simp [branch]
        · simp [branch]
          omega
      · simp [none, queries, asks]
    · simp [none]

theorem mem_handled {n : Nat} {log : ComponentLog n PredictorPacket PredictorPacket}
    {packet : PredictorPacket} : packet ∈ log.handled ↔ ∃ id, packet ∈ log.processed id := by
  simp only [ComponentLog.handled, ComponentLog.processed, List.mem_filterMap, Prod.exists]
  constructor
  · rintro ⟨id, event, member, found⟩
    refine ⟨id, id, event, member, ?_⟩
    cases event <;> simp_all
  · rintro ⟨id, other, event, member, found⟩
    refine ⟨other, event, member, ?_⟩
    cases event with
    | processed message =>
      by_cases same : other = id <;> simp_all
    | accepted message => cases found
    | answered response => cases found

/-- The counters are right only where they have nothing to count. -/
theorem counters_agree_iff (asked : List PredictorPacket) :
    (∀ branchType : Branch,
      (if branchType = .none then asked.countP fun query => branchClass query ≠ .none else 0) =
        asked.countP fun query => branchClass query = branchType) ↔ asked = [] := by
  constructor
  · intro agree
    have branches : ∀ query ∈ asked, branchClass query = .none := by
      intro query member
      by_contra branch
      have silent := agree (branchClass query)
      rw [if_neg branch, eq_comm, List.countP_eq_zero] at silent
      exact silent query member (by simp)
    have nones := agree .none
    rw [if_pos rfl, List.countP_eq_zero.mpr (by simpa using branches), eq_comm,
      List.countP_eq_zero] at nones
    refine List.eq_nil_iff_forall_not_mem.mpr fun query member => ?_
    exact nones query member (by simpa using branches query member)
  · rintro rfl branchType
    simp

theorem filterMap_responseOf (p : HardwiredPredictor) (packets : List PredictorPacket) :
    (packets.filterMap fun packet => if isQuery packet then some (responseOf p packet) else none) =
      (queries packets).map (responseOf p) := by
  induction packets with
  | nil => rfl
  | cons packet packets ih =>
    by_cases asks : isQuery packet
    · simpa [queries, asks] using ih
    · simpa [queries, asks] using ih

section Run

variable {n : Nat} (bufferSizes : Fin n → Nat) (p : HardwiredPredictor)
  (cycles : List (ClientCycle n PredictorPacket))

/-- Everything read from a connection is answered there, updates apart. -/
theorem answered_eq (id : Fin n) :
    let log := (Machine.run HardwiredPredictor.clock.cycle
      (p, fun id => .connect (bufferSizes id)) cycles).2
    ComponentLog.answered id log =
      (queries (ComponentLog.processed id log)).map (responseOf p) := by
  have keeps : ∀ q packet, SameFlags p q → SameFlags p (q.respond packet).1 :=
    fun q packet same branchType => ((respond_eq q packet).2.1 branchType).trans (same branchType)
  have answers : ∀ q packet, SameFlags p q → (q.respond packet).2.map (fun response => response) =
      if isQuery packet then some (responseOf p packet) else none := by
    intro q packet same
    rw [(respond_eq q packet).1, same.responseOf_eq, Option.map_id']
  have whole := clockAll_cycles HardwiredPredictor.respond keeps answers
    (p, fun id => .connect (bufferSizes id)) (fun _ => rfl) (fun _ => rfl) cycles id
  rw [List.map_id', filterMap_responseOf] at whole
  exact whole

/-- For every setting of the flags, every number of connections and everything the clients
do: the queries on all connections are answered as the flags say if and only if the flag
of every class asked about is that of `BranchNone`, which has to be set where that is asked
about; the counters are right if and only if there is no query at all. -/
theorem hardwired_predictor :
    let run := Machine.run HardwiredPredictor.clock.cycle
      (p, fun id => .connect (bufferSizes id)) cycles
    let asked := queries (ComponentLog.handled run.2)
    ((∀ id, List.Forall₂ (AnsweredAsConfigured p) (queries (ComponentLog.processed id run.2))
        (ComponentLog.answered id run.2)) ↔
      ∀ query ∈ asked, Respected p (branchClass query)) ∧
    ((∀ branchType, classCounter run.1.1 branchType =
        classCounter p branchType + asked.countP fun query => branchClass query = branchType) ↔
      asked = []) := by
  intro run asked
  constructor
  · have answers : ∀ id, List.Forall₂ (AnsweredAsConfigured p)
        (queries (ComponentLog.processed id run.2)) (ComponentLog.answered id run.2) ↔
        ∀ query ∈ queries (ComponentLog.processed id run.2), Respected p (branchClass query) := by
      intro id
      rw [answered_eq, List.forall₂_map_right_iff, List.forall₂_same]
      exact forall₂_congr fun query _ => answeredAsConfigured_iff p query
    rw [forall_congr' answers]
    constructor
    · intro respected query member
      obtain ⟨handled, asks⟩ := List.mem_filter.mp member
      obtain ⟨id, processed⟩ := mem_handled.mp handled
      exact respected id query (List.mem_filter.mpr ⟨processed, asks⟩)
    · intro respected id query member
      obtain ⟨processed, asks⟩ := List.mem_filter.mp member
      exact respected query (List.mem_filter.mpr ⟨mem_handled.mpr ⟨id, processed⟩, asks⟩)
  · have final : run.1.1 = afterRequests HardwiredPredictor.respond p
        (ComponentLog.handled run.2) :=
      Serves.cycles _ (clockAll_serves _) (p, fun id => .connect (bufferSizes id)) cycles
    rw [final, ← counters_agree_iff]
    refine forall_congr' fun branchType => ?_
    rw [afterRequests_classCounter, Nat.add_left_cancel_iff]

end Run

/-- A client that asks about one call. -/
def asksAboutCall : List (ClientCycle 1 PredictorPacket) :=
  [⟨[.sendRequest ⟨0, Nat.zero_lt_one⟩ { instruction.staticInfo.branchType := .call }], []⟩,
    ⟨[], []⟩]

/-- With the flag of what is no branch cleared the call is mispredicted, though its own flag
is set, and it is not counted. -/
theorem call_is_no_branch :
    let p : HardwiredPredictor := { noBranch := false }
    let run := Machine.run HardwiredPredictor.clock.cycle
      (p, fun _ : Fin 1 => .connect 0) asksAboutCall
    let asked := queries (ComponentLog.handled run.2)
    ¬ List.Forall₂ (AnsweredAsConfigured p) (queries (ComponentLog.processed 0 run.2))
        (ComponentLog.answered 0 run.2) ∧
      classCounter run.1.1 .call ≠
        classCounter p .call + asked.countP fun query => branchClass query = .call := by
  decide +kernel

end Sinuca3.Guarantees
