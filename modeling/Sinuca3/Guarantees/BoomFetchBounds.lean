import Sinuca3.Guarantees.FetchBufferBound
import Sinuca3.Source.Engine.BoomBudget

/-!
# The bounds of the buffer of boom fetch

The loops of boom fetch that look for a flag stop at an entry without it, and `ClockFetch`
counts on a slot after the last entry: both are there as long as the buffer does not fill
up. As in the fetcher, answers may arrive that were asked for without counting the one
before, here only with a request every cycle and a penalty of three.
-/
namespace Sinuca3.Guarantees
open Sinuca3.Source Lib

variable {ρ μ π : Type}

/-- Every cell that a loop reads or writes is one of the array. -/
def ScansInBounds (size : Nat) (cells : List Nat) : Prop := ∀ cell ∈ cells, cell < size

instance (size : Nat) (cells : List Nat) : Decidable (ScansInBounds size cells) :=
  inferInstanceAs (Decidable (∀ _ ∈ _, _))

theorem ScansInBounds.nil (size : Nat) : ScansInBounds size [] := fun _ member =>
  absurd member List.not_mem_nil

/-- The cells of some cycles and those of the cycle after them. -/
theorem ScansInBounds.append {size : Nat} {cells new : List Nat} (before : ScansInBounds size cells)
    (now : ScansInBounds size new) : ScansInBounds size (cells ++ new) := by
  intro cell member
  rcases List.mem_append.mp member with old | here
  · exact before cell old
  · exact now cell here

section Prompt

/-- The parameters of a boom fetch, which no cycle changes. -/
def boomParameters (f : BoomFetch) : Nat × Nat × Nat :=
  (f.fetchSize, f.fetchInterval, f.misspredictPenalty)

theorem boomParameters_cycle {φ : Type} (S : FetchStage.Servers φ μ π) (s : BoomStage φ μ π) :
    boomParameters (s.cycle S ()).1.boomFetch = boomParameters s.boomFetch := by
  obtain ⟨clocked, result, boomFetch, _⟩ := s.cycle_eq S
  obtain ⟨count, control⟩ := s.boomFetch.clock_control (s.found S)
  rw [← result, ← boomFetch] at control
  obtain ⟨size, interval, _, penalty, _⟩ := BoomFetch.fields_of_control control
  unfold boomParameters
  rw [size, interval, penalty]
  rfl

/-- The stage as `Configure` left it. -/
theorem configured_cohorts {misspredictPenalty : Int} {fetchInterval fetchSize : Option Int}
    {interleavingFactor numberOfEntries : Int} {btbSendTo : Bool} {size : Int} {rasSendTo : Bool}
    {s : BoomStage (Engine ρ × List EngineEvent) μ π}
    (configured : s.Configured misspredictPenalty fetchInterval fetchSize interleavingFactor
      numberOfEntries btbSendTo size rasSendTo)
    (small : s.boomFetch.fetchSize < 2147483648) (oneCore : s.fetch.1.numberOfFetchers = 1)
    (buffered : Engine.Sized (s.fetch.1.fetchBuffers 0)) : s.Cohorts [] [] [] := by
  obtain ⟨_, _, bytes, _, _, _, _, positive, _, _, f, ports⟩ := BoomFetch.configure_ok configured
  have none : ∀ e : BoomFetchBufferEntry, e ∉ ([] : List BoomFetchBufferEntry) := fun _ =>
    List.not_mem_nil
  have fits : bytes < 2147483648 := by
    rw [f] at small
    exact small
  have aligned : s.boomFetch.Aligned [] ([] ++ []) [] := by
    rw [f]
    exact ⟨rfl, fun e member => absurd member (none e), fun e member => absurd member (none e),
      fun e member => absurd member (none e), rfl, positive, rfl, rfl, Nat.le_refl 0⟩
  have buffer : s.boomFetch.Cohorts [] [] [] := by
    refine ⟨aligned, fun e member => absurd member (none e), ?_, ?_, ?_, ?_, ?_, ?_, ?_⟩
    all_goals rw [f]
    · rfl
    · exact Nat.le_refl 0
    · exact Connection.bufferSize_connect fits
    · exact Nat.le_refl 0
    · rfl
    · rfl
    · exact Connection.bufferSize_connect fits
  refine ⟨buffer, ⟨?_, ?_, ?_, ?_, ?_⟩, ?_, ?_, ?_, small, ?_, ?_, ?_, oneCore, buffered, ?_, ?_, ?_,
    ?_⟩
  · rw [ports]
    rfl
  · rw [ports, f]
    exact Connection.bufferSize_connect fits
  · rw [ports]
    rfl
  · rw [ports, f]
    exact Connection.bufferSize_connect fits
  · rw [ports]
    rfl
  · rw [ports]
    rfl
  · rw [ports]
    intro q member
    cases member
  · rw [ports]
    rfl
  · rw [ports]
    rfl
  · rw [ports]
    rfl
  · rw [ports, f]
    exact Connection.bufferSize_connect fits
  · rw [f]
    intro e member
    cases member
  · rw [ports]
    intro p member
    cases member
  · rw [f]
    exact positive
  · rw [ports]
    exact .inl rfl

/-- Where the boom fetch goes on to fetch, no answer waits for it or all of its entries are
sent. -/
def AnswersSentApart {φ : Type} (S : FetchStage.Servers φ μ π) (s : BoomStage φ μ π)
    (_ : Unit) : Prop :=
  s.boomFetch.returnsEarly (s.found S) = false → s.ports.fetch.readableResponses = [] ∨
    ∀ e ∈ s.boomFetch.contents, e.flags.sentToMemory = true

instance {φ : Type} (S : FetchStage.Servers φ μ π) (s : BoomStage φ μ π) (u : Unit) :
    Decidable (AnswersSentApart S s u) :=
  inferInstanceAs (Decidable (_ → _ ∨ _))

/-- Between cycles, with an invariant of the octets. -/
structure Flowing (inv : BoomFlow → Prop) (parameters : Nat × Nat × Nat)
    (t : BoomStage (Engine ρ × List EngineEvent) μ π) : Prop where
  parameters : boomParameters t.boomFetch = parameters
  octets : ∃ answered asked fresh left, t.Cohorts answered asked fresh ∧
    inv (t.flow answered asked fresh left)

variable (R : TraceReader ρ) {bound : Nat}
  (instructionMemory : Server μ InstructionPacket InstructionPacket)
  (P : InOrderPredictor π)

theorem engineServers_eq : FetchStage.PredictedServers.servers
    { fetch := Engine.server R bound, instructionMemory, predictor := P } =
      engineServers R bound instructionMemory P.toServer := rfl

/-- In states that meet `cond`, the invariant leaves room for what a cycle takes. -/
def LeavesRoom (bound : Nat)
    (cond : BoomStage (Engine ρ × List EngineEvent) μ π → Unit → Prop) (inv : BoomFlow → Prop) :
    Prop :=
  ∀ t answered asked fresh left, t.Cohorts answered asked fresh →
    inv (t.flow answered asked fresh left) → cond t () →
    BoomFlow.Roomy t.boomFetch.fetchSize (!t.boomFetch.returnsEarly
      (t.found (engineServers R bound instructionMemory P.toServer)))
      (t.flow answered asked fresh left)

section Run

variable {cond : BoomStage (Engine ρ × List EngineEvent) μ π → Unit → Prop}
  {inv : BoomFlow → Prop} {size interval penalty : Nat}
  {t : BoomStage (Engine ρ × List EngineEvent) μ π}

/-- A cycle stays within the array, whatever the engine reads in it. -/
theorem Flowing.cells (before : Flowing inv (size, interval, penalty) t)
    (prompt : ∀ t, P.pending t = []) (roomy : LeavesRoom R instructionMemory P bound cond inv)
    (here : cond t ()) :
    ScansInBounds size (t.cycle (engineServers R bound instructionMemory P.toServer) ()).2 := by
  obtain ⟨parameters, answered, asked, fresh, left, cohorts, holds⟩ := before
  have same : t.boomFetch.fetchSize = size := congrArg Prod.fst parameters
  have room := roomy t answered asked fresh left cohorts holds here
  obtain ⟨buffer, _⟩ := cohorts.clock (engineServers R bound instructionMemory P.toServer) room
  have aligned : t.Aligned P [] (answered ++ asked) fresh := by
    refine ⟨cohorts.buffer.aligned, cohorts.prompt.predictorUnsent, cohorts.unanswered,
      cohorts.queries, ?_⟩
    rw [cohorts.prompt.responses, prompt, cohorts.found, List.length_append, List.length_nil,
      Nat.zero_add]
  obtain ⟨reads, size', _⟩ := BoomStage.Aligned.cycle
    { fetch := Engine.server R bound, instructionMemory, predictor := P } aligned
  rw [engineServers_eq] at reads size'
  have fits := buffer.aligned.room
  rw [← same]
  refine reads.mpr ?_
  rw [← size']
  exact fits

/-- A cycle in which the trace goes on leaves the octets in their places. -/
theorem Flowing.cycle (before : Flowing inv (size, interval, penalty) t)
    (prompt : ∀ t, P.pending t = []) (enough : size ≤ bound)
    (roomy : LeavesRoom R instructionMemory P bound cond inv)
    (keeps : ∀ reaches x y, BoomFlow.Roomy size reaches x →
      BoomFlow.Cycle size interval penalty reaches x y → inv x → inv y)
    (here : cond t ())
    (goes : ∀ event ∈
      (t.cycle (engineServers R bound instructionMemory P.toServer) ()).1.fetch.2,
      event.SizedAnswer ∧ event.Continues) :
    Flowing inv (size, interval, penalty)
      (t.cycle (engineServers R bound instructionMemory P.toServer) ()).1 := by
  obtain ⟨parameters, answered, asked, fresh, left, cohorts, holds⟩ := before
  have sameSize : t.boomFetch.fetchSize = size := congrArg Prod.fst parameters
  have sameInterval : t.boomFetch.fetchInterval = interval :=
    congrArg (fun p => p.2.1) parameters
  have samePenalty : t.boomFetch.misspredictPenalty = penalty :=
    congrArg (fun p => p.2.2) parameters
  have room := roomy t answered asked fresh left cohorts holds here
  rw [← sameSize] at enough
  have after := cohorts.cycle R instructionMemory P prompt enough room goes
  have flows := cohorts.flow_cycle R instructionMemory P enough left goes after
  rw [sameSize, sameInterval, samePenalty] at flows
  rw [sameSize] at room
  refine ⟨?_, _, _, _, _, after, keeps _ _ _ room flows holds⟩
  rw [boomParameters_cycle]
  exact parameters

/-- All cycles stay within the array up to the one in which the trace ends. -/
theorem Flowing.simulate (start : Flowing inv (size, interval, penalty) t)
    (prompt : ∀ t, P.pending t = []) (enough : size ≤ bound)
    (roomy : LeavesRoom R instructionMemory P bound cond inv)
    (keeps : ∀ reaches x y, BoomFlow.Roomy size reaches x →
      BoomFlow.Cycle size interval penalty reaches x y → inv x → inv y)
    (cycles : Nat)
    (meets : Machine.Meets (BoomStage.cycle (engineServers R bound instructionMemory P.toServer))
      cond t (List.replicate cycles ()))
    (goes : ∀ event ∈
      (t.simulate (engineServers R bound instructionMemory P.toServer) cycles).1.fetch.2,
      event.SizedAnswer ∧ event.Continues) :
    ScansInBounds size
        (t.simulate (engineServers R bound instructionMemory P.toServer) cycles).2 ∧
      Flowing inv (size, interval, penalty)
        (t.simulate (engineServers R bound instructionMemory P.toServer) cycles).1 := by
  induction cycles with
  | zero => exact ⟨.nil size, start⟩
  | succ cycles ih =>
    rw [BoomStage.simulate_succ] at goes ⊢
    rw [List.replicate_succ', Machine.meets_concat] at meets
    have record : ∃ events, (((t.simulate (engineServers R bound instructionMemory P.toServer)
        cycles).1.cycle (engineServers R bound instructionMemory P.toServer) ()).1.fetch).2 =
        (t.simulate (engineServers R bound instructionMemory P.toServer) cycles).1.fetch.2 ++
          events := by
      obtain ⟨_, _, _, fetchState, _⟩ := (t.simulate (engineServers R bound instructionMemory
        P.toServer) cycles).1.cycle_eq (engineServers R bound instructionMemory P.toServer)
      rw [fetchState]
      exact ⟨_, rfl⟩
    obtain ⟨events, record⟩ := record
    obtain ⟨cells, flowing⟩ := ih meets.1 fun event member => goes event (by
      dsimp only
      rw [record]
      exact List.mem_append_left _ member)
    exact ⟨cells.append (flowing.cells R instructionMemory P prompt roomy meets.2),
      flowing.cycle R instructionMemory P prompt enough roomy keeps meets.2 goes⟩

/-- The same, with the cycle in which the trace ends. -/
theorem Flowing.run_in_bounds (start : Flowing inv (size, interval, penalty) t)
    (prompt : ∀ t, P.pending t = []) (enough : size ≤ bound)
    (roomy : LeavesRoom R instructionMemory P bound cond inv)
    (keeps : ∀ reaches x y, BoomFlow.Roomy size reaches x →
      BoomFlow.Cycle size interval penalty reaches x y → inv x → inv y)
    (cycles : Nat)
    (meets : Machine.Meets (BoomStage.cycle (engineServers R bound instructionMemory P.toServer))
      cond t (List.replicate cycles ()))
    (goes : ∀ event ∈
      (t.simulate (engineServers R bound instructionMemory P.toServer) (cycles - 1)).1.fetch.2,
      event.SizedAnswer ∧ event.Continues) :
    ScansInBounds size
      (t.simulate (engineServers R bound instructionMemory P.toServer) cycles).2 := by
  cases cycles with
  | zero => exact .nil size
  | succ cycles =>
    rw [List.replicate_succ', Machine.meets_concat] at meets
    obtain ⟨cells, flowing⟩ :=
      start.simulate R instructionMemory P prompt enough roomy keeps cycles meets.1 goes
    rw [BoomStage.simulate_succ]
    exact cells.append (flowing.cells R instructionMemory P prompt roomy meets.2)

end Run

/-- Requests and penalties are aligned. -/
theorem leavesRoom_of_parameters {size interval penalty : Nat}
    (safe : 1 < interval ∨ penalty ≠ 3 ∨ size < 4) :
    LeavesRoom R instructionMemory P bound
      (fun t _ => boomParameters t.boomFetch = (size, interval, penalty))
      (BoomFlow.Inv size interval penalty) := by
  intro t answered asked fresh left cohorts inv same
  have sameSize : t.boomFetch.fetchSize = size := congrArg Prod.fst same
  rw [sameSize]
  refine inv.roomy (fun reaches => ?_) safe
  rw [Bool.not_eq_true'] at reaches
  exact cohorts.reaches (engineServers R bound instructionMemory P.toServer) reaches

/-- Answers are kept apart from what is not sent. -/
theorem leavesRoom_of_apart {size : Nat} :
    LeavesRoom R instructionMemory P bound
      (fun t u => t.boomFetch.fetchSize = size ∧
        AnswersSentApart (engineServers R bound instructionMemory P.toServer) t u)
      (BoomFlow.Budget size) := by
  rintro t answered asked fresh left cohorts budget ⟨same, here⟩
  rw [same]
  refine budget.roomy fun reaches => ?_
  rw [Bool.not_eq_true'] at reaches
  rcases here reaches with none | sent
  · left
    unfold BoomStage.flow
    rw [none]
    rfl
  · right
    cases fresh with
    | nil => rfl
    | cons e fresh =>
      have unsent := sent e (by rw [cohorts.contents]; simp)
      rw [cohorts.buffer.aligned.fresh e (List.mem_cons_self ..)] at unsent
      cases unsent

/-- The parameters stay as they are. -/
theorem meets_boomParameters {φ : Type} (S : FetchStage.Servers φ μ π) (s : BoomStage φ μ π)
    (cycles : Nat) :
    Machine.Meets (BoomStage.cycle S)
      (fun t _ => boomParameters t.boomFetch = boomParameters s.boomFetch) s
      (List.replicate cycles ()) := by
  refine Machine.meets_of_invariant _ _
    (fun t => boomParameters t.boomFetch = boomParameters s.boomFetch) ?_ ?_ s rfl _
  · rintro t ⟨⟩ same
    rw [boomParameters_cycle]
    exact same
  · intro t _ same
    exact same

end Prompt

/-- A boom fetch of two entries and a penalty of three, and a run of one instruction. -/
def oneOctetBoomStage (interval : Nat) : BoomStage (Engine SinucaTraceReader × List EngineEvent)
    SimpleInstructionMemory HardwiredPredictor :=
  .ofTrace 3 interval 2 {} oneOctet
    { dynamic := List.replicate 12 (.basicBlock 0)
      memory := [] }

/-- A boom fetch of four entries and a predictor that is wrong about the branch. -/
def fewOctetsBoomStage : BoomStage (Engine SinucaTraceReader × List EngineEvent)
    SimpleInstructionMemory HardwiredPredictor :=
  .ofTrace 3 1 4 { noBranch := false } fewOctets
    { dynamic := [.basicBlock 0, .basicBlock 1, .basicBlock 2] ++
        List.replicate 12 (.basicBlock 0)
      memory := [] }

/-- For every reader, memory, predictor that answers in order and configuration: a run stays
within the array exactly when no cycle of it leaves the buffer full. With a predictor that
answers at once and instructions of at least one octet, it does up to the cycle in which
the trace ends if requests are not made every cycle, or the penalty is not three, or the
array has less than four entries, or else if answers are kept apart in every cycle. -/
theorem boom_fetch_scans_in_bounds (R : TraceReader ρ) (bound : Nat)
    (instructionMemory : Server μ InstructionPacket InstructionPacket) (P : InOrderPredictor π)
    {misspredictPenalty : Int} {fetchInterval fetchSize : Option Int}
    {interleavingFactor numberOfEntries : Int} {btbSendTo : Bool} {size : Int} {rasSendTo : Bool}
    {s : BoomStage (Engine ρ × List EngineEvent) μ π}
    (configured : s.Configured misspredictPenalty fetchInterval fetchSize interleavingFactor
      numberOfEntries btbSendTo size rasSendTo)
    (idle : P.pending s.predictor = []) (cycles : Nat) :
    (ScansInBounds s.boomFetch.fetchSize
        (s.simulate (engineServers R bound instructionMemory P.toServer) cycles).2 ↔
      ∀ n ≤ cycles,
        (s.simulate (engineServers R bound instructionMemory P.toServer)
          n).1.boomFetch.fetchBufferUsage < s.boomFetch.fetchSize) ∧
    ((∀ t, P.pending t = []) → s.fetch.1.numberOfFetchers = 1 →
      Engine.Sized (s.fetch.1.fetchBuffers 0) →
      (∀ event ∈ (s.simulate (engineServers R bound instructionMemory P.toServer)
        (cycles - 1)).1.fetch.2, event.SizedAnswer ∧ event.Continues) →
      s.boomFetch.fetchSize ≤ bound → s.boomFetch.fetchSize < 2147483648 →
      s.boomFetch.fetchInterval ≠ 1 ∨ s.boomFetch.misspredictPenalty ≠ 3 ∨
        s.boomFetch.fetchSize < 4 ∨
        Machine.Meets (BoomStage.cycle (engineServers R bound instructionMemory P.toServer))
          (AnswersSentApart (engineServers R bound instructionMemory P.toServer)) s
          (List.replicate cycles ()) →
      ScansInBounds s.boomFetch.fetchSize
        (s.simulate (engineServers R bound instructionMemory P.toServer) cycles).2) := by
  constructor
  · exact BoomStage.Aligned.accesses_iff
      { fetch := Engine.server R bound, instructionMemory, predictor := P }
      (configured.aligned P idle) cycles
  · intro prompt oneCore buffered goes enough small safe
    have cohorts := configured_cohorts configured small oneCore buffered
    obtain ⟨_, interval, _, _, _, _, positive, sizePositive, _, _, f, ports⟩ :=
      BoomFetch.configure_ok configured
    have sameInterval : s.boomFetch.fetchInterval = interval := by rw [f]
    have first : BoomFlow.Inv s.boomFetch.fetchSize s.boomFetch.fetchInterval
        s.boomFetch.misspredictPenalty (s.flow [] [] [] 0) := by
      refine BoomFlow.Inv.start ?_ ?_ rfl ?_ ?_
      · rw [f]
        exact sizePositive
      · unfold BoomStage.flow
        rw [f]
      · unfold BoomStage.flow
        rw [ports]
        rfl
      · unfold BoomStage.flow
        rw [ports]
        rfl
    have same := meets_boomParameters (engineServers R bound instructionMemory P.toServer) s cycles
    have safe : (1 < s.boomFetch.fetchInterval ∨ s.boomFetch.misspredictPenalty ≠ 3 ∨
        s.boomFetch.fetchSize < 4) ∨
        Machine.Meets (BoomStage.cycle (engineServers R bound instructionMemory P.toServer))
          (AnswersSentApart (engineServers R bound instructionMemory P.toServer)) s
          (List.replicate cycles ()) := by
      rcases safe with spaced | penalty | short | apart
      · exact .inl (.inl (by omega))
      · exact .inl (.inr (.inl penalty))
      · exact .inl (.inr (.inr short))
      · exact .inr apart
    rcases safe with aligned | apart
    · have start : Flowing (BoomFlow.Inv s.boomFetch.fetchSize s.boomFetch.fetchInterval
          s.boomFetch.misspredictPenalty) (boomParameters s.boomFetch) s :=
        ⟨rfl, [], [], [], 0, cohorts, first⟩
      exact start.run_in_bounds R instructionMemory P prompt enough
        (leavesRoom_of_parameters R instructionMemory P aligned)
        (fun _ _ _ room cycle inv => inv.cycle room cycle) cycles same goes
    · have start : Flowing (BoomFlow.Budget s.boomFetch.fetchSize) (boomParameters s.boomFetch)
          s := ⟨rfl, [], [], [], 0, cohorts, first.budget⟩
      have meets := (Machine.meets_and _ _ _ s _).mpr ⟨same.imp _ fun t _ parameters =>
        show t.boomFetch.fetchSize = s.boomFetch.fetchSize from congrArg Prod.fst parameters, apart⟩
      exact start.run_in_bounds R instructionMemory P prompt enough
        (leavesRoom_of_apart R instructionMemory P)
        (fun _ _ _ room cycle budget => budget.cycle room cycle) cycles meets goes

/-- With a request every second cycle. -/
theorem boom_fetch_scans_in_bounds_interval_2 :
    ScansInBounds 2 ((oneOctetBoomStage 2).simulate sinucaServers 8).2 :=
  (boom_fetch_scans_in_bounds sinucaTraceReader 16 simpleInstructionMemory hardwiredPredictor
    (show (oneOctetBoomStage 2).Configured 3 (some 2) (some 2) 1 16 false 2 false from rfl) rfl
    8).2 (fun _ => rfl) rfl (by decide) (by decide +kernel) (by decide) (by decide)
    (Or.inl (by decide))

/-- With a request every cycle, a penalty of three and four entries, `ClockFetch` has the
connection copy an answer into a slot past the end. -/
theorem boom_fetch_scans_past_the_end :
    fewOctetsBoomStage.Configured 3 (some 1) (some 4) 1 16 false 2 false ∧
    (fewOctetsBoomStage.simulate sinucaServers 13).1.fetch.1.end_ = false ∧
    (fewOctetsBoomStage.simulate sinucaServers 13).1.fetch.1.error = false ∧
    (∀ event ∈ (fewOctetsBoomStage.simulate sinucaServers 13).1.fetch.2,
      event.SizedAnswer ∧ event.Continues) ∧
    ¬ ScansInBounds 4 (fewOctetsBoomStage.simulate sinucaServers 13).2 :=
  ⟨rfl, by decide +kernel, by decide +kernel, by decide +kernel, by decide +kernel⟩

end Sinuca3.Guarantees
