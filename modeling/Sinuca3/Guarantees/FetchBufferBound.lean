import Sinuca3.Source.Engine.FetchBudget
import Sinuca3.Source.Engine.FetchFlow

/-!
# The bound of the fetch buffer

`ClockFetch` counts on having asked for no more than the buffer has room for. A
request leaves out the answer that is still under way, so this is so as long as no
answer arrives while the one before it has not been sent to the predictor. Without a
predictor, with requests that are not made every cycle, and with all penalties but
three, that never happens.
-/
namespace Sinuca3.Guarantees
open Sinuca3.Source Lib

variable {ρ μ π : Type}

/-- Every slot passed to `ReceiveResponse` is one of the array. -/
def InBounds (size : Nat) (log : List StageEvent) : Prop :=
  ∀ slot ∈ Fetcher.slots (fetcherLog log), slot < size

instance (size : Nat) (log : List StageEvent) : Decidable (InBounds size log) :=
  inferInstanceAs (Decidable (∀ _ ∈ _, _))

theorem InBounds.append {size : Nat} {log more : List StageEvent} (old : InBounds size log)
    (new : ∀ slot ∈ Fetcher.slots (fetcherLog more), slot < size) :
    InBounds size (log ++ more) := by
  intro slot member
  rw [fetcherLog_append, Fetcher.slots_append] at member
  rcases List.mem_append.mp member with before | after
  · exact old slot before
  · exact new slot after

/-- A cycle that goes on to fetch finds no answers, or has sent every entry to the
predictor before. -/
def AnswersApart {φ : Type} (s : FetchStage φ μ π) (_ : Unit) : Prop :=
  s.fetcher.returnsEarly s.ports = false → s.ports.fetch.readableResponses = [] ∨
    ∀ entry ∈ s.fetcher.contents, entry.flags.sentToPredictor = true

instance {φ : Type} (s : FetchStage φ μ π) (u : Unit) : Decidable (AnswersApart s u) :=
  inferInstanceAs (Decidable (_ → _ ∨ _))

theorem bytes_drop_le (n : Nat) (ps : List InstructionPacket) : bytes (ps.drop n) ≤ bytes ps := by
  have split := congrArg bytes (List.take_append_drop n ps)
  rw [bytes_append] at split
  omega

section WithPredictor

/-- Between cycles, with a predictor: the buffer has room for what is held, and the
answers that wait leave room for what was held when they were asked for and is still
held. -/
structure Budgeted (P : InOrderPredictor π) (s : FetchStage (Engine ρ × List EngineEvent) μ π)
    (c : PredictorConnection) (asked fresh : List InstructionPacket) : Prop where
  predicted : FetchStage.Predicted P s c asked fresh
  asking : s.Asking (asked ++ fresh)
  capacity : c.bufferSize = s.fetcher.fetchSize
  answers : s.ports.fetch.readableResponses = [] ∨
    bytes s.ports.fetch.readableResponses + bytes asked < s.fetcher.fetchSize

def flow {φ : Type} (s : FetchStage φ μ π) (c : PredictorConnection)
    (fresh : List InstructionPacket) : Flow where
  currentPenalty := s.fetcher.currentPenalty
  fetchClock := s.fetcher.fetchClock
  requests := s.ports.fetch.readableRequests.length
  waiting := s.ports.fetch.readableResponses.length
  fresh := fresh.length
  asked := c.readableRequests.length
  answered := c.readableResponses.length

/-- What stays in the buffer and what a cycle takes fit. -/
def Roomy {φ : Type} (s : FetchStage φ μ π) (c : PredictorConnection)
    (asked fresh : List InstructionPacket) : Prop :=
  bytes (asked.drop c.readableResponses.length ++ fresh) + bytes s.taken < s.fetcher.fetchSize

/-- They do when nothing waits, or nothing is new. -/
theorem Budgeted.roomy {P : InOrderPredictor π}
    {s : FetchStage (Engine ρ × List EngineEvent) μ π} {c : PredictorConnection}
    {asked fresh : List InstructionPacket} (before : Budgeted P s c asked fresh)
    (apart : s.fetcher.returnsEarly s.ports = false →
      s.ports.fetch.readableResponses = [] ∨ fresh = []) : Roomy s c asked fresh := by
  have fits := before.asking.fits
  have left := bytes_drop_le c.readableResponses.length asked
  unfold Roomy FetchStage.taken
  rw [bytes_append] at fits ⊢
  split
  · rw [bytes_nil]
    omega
  · rename_i reaches
    rcases apart (by simpa using reaches) with none | none
    · rw [none, bytes_nil]
      omega
    · rw [none, bytes_nil] at fits ⊢
      rcases before.answers with empty | room
      · rw [empty, bytes_nil]
        omega
      · omega

/-- The parameters of a fetcher, which no cycle changes. -/
def parameters {φ : Type} (s : FetchStage φ μ π) : Nat × Nat × Nat :=
  (s.fetcher.fetchSize, s.fetcher.fetchInterval, s.fetcher.misspredictPenalty)

theorem parameters_cycle {φ : Type} (S : FetchStage.Servers φ μ π) {s : FetchStage φ μ π}
    (unsent : s.ports.fetch.sentRequests = []) :
    parameters (s.cycle S ()).1 = parameters s := by
  obtain ⟨size', interval', missed', _⟩ := FetchStage.cycle_parameters S unsent
  unfold parameters
  rw [size', interval', missed']

/-- When the fetcher goes on to fetch. -/
theorem inside_of_reaches {φ : Type} {s : FetchStage φ μ π} {c : PredictorConnection}
    (predictor : s.ports.predictor = some c)
    (reaches : s.fetcher.returnsEarly s.ports = false) :
    s.fetcher.currentPenalty ≤ 3 ∧
      (s.fetcher.currentPenalty = 0 → c.readableResponses ≠ []) := by
  obtain ⟨inside, confirmed⟩ := Fetcher.reaches_iff.mp reaches
  rw [predictor] at confirmed
  refine ⟨inside, fun outside empty => ?_⟩
  have right := confirmed outside
  simp [Fetcher.unconfirmed, empty] at right

/-- The counts move as the flow says. -/
theorem flow_cycle {φ : Type} (S : FetchStage.Servers φ μ π) {s : FetchStage φ μ π}
    (unsent : s.ports.fetch.sentRequests = []) {c c' : PredictorConnection}
    (predictor : s.ports.predictor = some c) {fresh : List InstructionPacket} {prompt : Prop}
    (unasked : s.ports.fetch.readableRequests.length = 0 →
      (s.cycle S ()).1.ports.fetch.readableResponses.length = 0)
    (asked : c'.readableRequests.length = fresh.length)
    (answered : prompt → c'.readableResponses.length = c.readableRequests.length) :
    Flow.Cycle prompt s.fetcher.fetchInterval s.fetcher.misspredictPenalty
      (!s.fetcher.returnsEarly s.ports) (flow s c fresh)
      (flow (s.cycle S ()).1 c' s.taken) := by
  cases early : s.fetcher.returnsEarly s.ports with
  | true =>
    obtain ⟨_, control', requests', _⟩ := FetchStage.cycle_of_early S early unsent
    obtain ⟨_, _, _, _, penalty', _⟩ := Fetcher.fields_of_control control'
    constructor
    · exact unasked
    · exact asked
    · exact answered
    · exact Or.inl (List.length_eq_zero_iff.mpr requests')
    · intro _
      refine ⟨?_, List.length_eq_zero_iff.mpr requests', ?_, penalty'⟩
      · exact (Fetcher.returnsEarly_iff.mp early).imp_right And.left
      · change s.taken.length = 0
        unfold FetchStage.taken
        rw [early]
        rfl
    · intro fetches
      cases fetches
  | false =>
    obtain ⟨_, control', requests', _⟩ := FetchStage.cycle_of_fetch S early unsent
    obtain ⟨_, _, clock', _, penalty', _⟩ := Fetcher.fields_of_control control'
    constructor
    · exact unasked
    · exact asked
    · exact answered
    · unfold flow
      dsimp only
      rw [requests', clock']
      split
      · rename_i due
        exact Or.inr ⟨due, rfl⟩
      · exact Or.inl rfl
    · intro returned
      cases returned
    · intro _
      obtain ⟨inside, confirmed⟩ := inside_of_reaches predictor early
      refine ⟨inside, ?_, ?_, penalty'⟩
      · intro outside unanswered
        exact confirmed outside (List.length_eq_zero_iff.mp unanswered)
      · change s.taken.length = _
        unfold FetchStage.taken
        rw [early]
        rfl

/-- With a prompt predictor and a request every cycle: with a penalty of three an answer
may find new entries, but only when some leave that were counted with both. -/
theorem Budgeted.roomy_of_phase {P : InOrderPredictor π}
    {s : FetchStage (Engine ρ × List EngineEvent) μ π} {c : PredictorConnection}
    {asked fresh : List InstructionPacket} (before : Budgeted P s c asked fresh)
    (prompt : ∀ t, P.pending t = []) (positive : 0 < s.fetcher.misspredictPenalty)
    (phase : Flow.Phase s.fetcher.misspredictPenalty (flow s c fresh))
    (safe : s.fetcher.misspredictPenalty ≠ 3 ∨ s.fetcher.fetchSize < 4) :
    Roomy s c asked fresh := by
  by_cases separate : s.fetcher.returnsEarly s.ports = false →
      s.ports.fetch.readableResponses = [] ∨ fresh = []
  · exact before.roomy separate
  obtain ⟨reaches, together⟩ := Classical.not_imp.mp separate
  rw [not_or] at together
  obtain ⟨inside, confirmed⟩ := inside_of_reaches before.predicted.predictor reaches
  rcases phase.apart positive inside (fun outside unanswered =>
      confirmed outside (List.length_eq_zero_iff.mp unanswered)) with
    none | none | ⟨three, unasked, answered⟩
  · exact absurd (List.length_eq_zero_iff.mp none) together.1
  · exact absurd (List.length_eq_zero_iff.mp none) together.2
  · -- All that was asked about is answered.
    have outstanding := before.predicted.outstanding
    rw [prompt, List.length_eq_zero_iff.mp unasked, List.map_nil, List.append_nil,
      List.append_nil] at outstanding
    have leaves : asked.drop c.readableResponses.length = [] := by
      rw [outstanding]
      simp
    have some : 0 < asked.length := by
      rw [outstanding, List.length_map]
      exact Nat.pos_of_ne_zero answered
    have counted := length_le_bytes fun p member =>
      before.asking.heldSized p (List.mem_append_left fresh member)
    have fits := before.asking.fits
    rw [bytes_append] at fits
    have few : s.fetcher.fetchSize < 4 := safe.resolve_left (by omega)
    unfold Roomy FetchStage.taken
    rw [leaves, List.nil_append, reaches]
    change bytes fresh + bytes s.ports.fetch.readableResponses < _
    rcases before.answers with empty | room
    · exact absurd empty together.1
    · omega

variable (R : TraceReader ρ) (bound : Nat)
  (instructionMemory : Server μ InstructionPacket InstructionPacket)
  (P : InOrderPredictor π)

theorem Budgeted.cycle {s : FetchStage (Engine ρ × List EngineEvent) μ π}
    {c : PredictorConnection} {asked fresh : List InstructionPacket}
    (before : Budgeted P s c asked fresh) (room : Roomy s c asked fresh)
    (sized : ∀ event ∈
      (s.cycle (engineServers R bound instructionMemory P.toServer) ()).1.fetch.2,
      event.SizedAnswer) :
    ∃ c', Budgeted P (s.cycle (engineServers R bound instructionMemory P.toServer) ()).1 c'
        (asked.drop c.readableResponses.length ++ fresh) s.taken ∧
      Flow.Cycle (∀ t, P.pending t = []) s.fetcher.fetchInterval s.fetcher.misspredictPenalty
        (!s.fetcher.returnsEarly s.ports) (flow s c fresh)
        (flow (s.cycle (engineServers R bound instructionMemory P.toServer) ()).1 c' s.taken) ∧
      parameters (s.cycle (engineServers R bound instructionMemory P.toServer) ()).1 =
        parameters s ∧
      ∀ slot ∈ Fetcher.slots
          (fetcherLog (s.cycle (engineServers R bound instructionMemory P.toServer) ()).2),
        slot < s.fetcher.fetchSize := by
  obtain ⟨predicted, asking, capacity, answers⟩ := before
  -- All of what is new is sent: there is as much room as in the buffer.
  have short : fresh.length ≤ c.bufferSize := by
    have counted := length_le_bytes fun p member =>
      asking.heldSized p (List.mem_append_right asked member)
    have fits := asking.fits
    rw [bytes_append] at fits
    omega
  have all := Connection.takes_all predicted.unsent.2 short
  obtain ⟨result, f', memory', c₁, buffered, contents', _⟩ := Fetcher.clockBuffered_aligned
    predicted.predictor predicted.checks predicted.unsent predicted.sameSize predicted.shape
    predicted.enough
  obtain ⟨c', predicted', capacity', queries, _, outstanding, _⟩ :=
    FetchStage.Predicted.cycle
      { fetch := Engine.server R bound, instructionMemory, predictor := P } predicted
  rw [all, List.take_length, List.drop_length] at predicted' contents'
  rw [all, List.take_length] at queries
  rw [List.nil_append] at predicted'
  have left : s.buffered.2.1.contents.map (·.instruction) =
      asked.drop c.readableResponses.length ++ fresh := by
    unfold FetchStage.buffered
    rw [buffered, contents']
    simp [Fetcher.aligned, Fetcher.askedEntry, Function.comp_def]
  have old : ∀ p ∈ asked.drop c.readableResponses.length ++ fresh, p ∈ asked ++ fresh := by
    intro p member
    rcases List.mem_append.mp member with first | second
    · exact List.mem_append_left _ (List.mem_of_mem_drop first)
    · exact List.mem_append_right _ second
  obtain ⟨asking', waiting', slots⟩ :=
    asking.cycle R bound instructionMemory P.toServer left old room sized
  have answered : (∀ t, P.pending t = []) →
      c'.readableResponses.length = c.readableRequests.length := by
    intro prompt
    rw [prompt, prompt, List.nil_append, List.append_nil] at outstanding
    have lengths := congrArg List.length outstanding
    rw [List.length_map, List.length_map] at lengths
    exact lengths.symm
  have answers' : (s.cycle (engineServers R bound instructionMemory P.toServer)
      ()).1.ports.fetch.readableResponses = [] ∨
      bytes (s.cycle (engineServers R bound instructionMemory P.toServer)
          ()).1.ports.fetch.readableResponses +
        bytes (asked.drop c.readableResponses.length ++ fresh) < s.fetcher.fetchSize := by
    have fewer := bytes_drop_le c.readableResponses.length asked
    rcases waiting' with none | ⟨_, room'⟩
    · exact Or.inl none
    · rw [bytes_append] at room' ⊢
      exact Or.inr (by omega)
  have unasked : s.ports.fetch.readableRequests.length = 0 →
      (s.cycle (engineServers R bound instructionMemory P.toServer)
        ()).1.ports.fetch.readableResponses.length = 0 := by
    intro none
    rcases waiting' with empty | ⟨some, _⟩
    · rw [empty]
      rfl
    · exact absurd (List.length_eq_zero_iff.mp none) some
  have sameParameters := parameters_cycle (engineServers R bound instructionMemory P.toServer)
    asking.unsent
  have size' : (s.cycle (engineServers R bound instructionMemory P.toServer)
      ()).1.fetcher.fetchSize = s.fetcher.fetchSize := congrArg Prod.fst sameParameters
  refine ⟨c', ⟨predicted', asking', ?_, ?_⟩, ?_, sameParameters, slots⟩
  · rw [capacity', capacity, size']
  · rw [size']
    exact answers'
  · apply flow_cycle _ asking.unsent predicted.predictor unasked _ answered
    rw [queries, List.length_map]

/-- What a run that may rely on `cond` keeps, with an invariant of the counts that gives
every cycle its room. -/
theorem run_in_bounds {s : FetchStage (Engine ρ × List EngineEvent) μ π}
    {c : PredictorConnection} (start : Budgeted P s c [] [])
    (cond : FetchStage (Engine ρ × List EngineEvent) μ π → Unit → Prop) (inv : Flow → Prop)
    (first : inv (flow s c []))
    (roomy : ∀ t c asked fresh, parameters t = parameters s → Budgeted P t c asked fresh →
      inv (flow t c fresh) → cond t () → Roomy t c asked fresh)
    (keeps : ∀ reaches x y, Flow.Cycle (∀ t, P.pending t = []) s.fetcher.fetchInterval
      s.fetcher.misspredictPenalty reaches x y → inv x → inv y)
    (cycles : Nat)
    (meets : Machine.Meets (FetchStage.cycle (engineServers R bound instructionMemory P.toServer))
      cond s (List.replicate cycles ()))
    (sized : ∀ event ∈
      (s.simulate (engineServers R bound instructionMemory P.toServer) cycles).1.fetch.2,
      event.SizedAnswer) :
    InBounds s.fetcher.fetchSize
      (s.simulate (engineServers R bound instructionMemory P.toServer) cycles).2 := by
  have kept : ∀ t log, t = (s.simulate (engineServers R bound instructionMemory P.toServer)
      cycles).1 → log = (s.simulate (engineServers R bound instructionMemory P.toServer)
      cycles).2 → (∀ event ∈ t.fetch.2, event.SizedAnswer) →
      InBounds s.fetcher.fetchSize log ∧ parameters t = parameters s ∧
        ∃ c asked fresh, Budgeted P t c asked fresh ∧ inv (flow t c fresh) := by
    rintro t log rfl rfl
    unfold FetchStage.simulate
    apply Machine.run_induction_of_meets
      (FetchStage.cycle (engineServers R bound instructionMemory P.toServer)) cond
      (P := fun t _ log => (∀ event ∈ t.fetch.2, event.SizedAnswer) →
        InBounds s.fetcher.fetchSize log ∧ parameters t = parameters s ∧
          ∃ c asked fresh, Budgeted P t c asked fresh ∧ inv (flow t c fresh))
    · intro _
      refine ⟨?_, rfl, c, [], [], start, first⟩
      intro slot member
      cases member
    · intro t _ log _ before here sized'
      obtain ⟨bounds, same, c, asked, fresh, budgeted, holds⟩ := before fun event member =>
        sized' event (List.mem_append_left _ member)
      obtain ⟨c', budgeted', cycle, same', slots⟩ := budgeted.cycle R bound instructionMemory P
        (roomy t c asked fresh same budgeted holds here) sized'
      have size := congrArg Prod.fst same
      have interval := congrArg (fun p => p.2.1) same
      have missed := congrArg (fun p => p.2.2) same
      dsimp only [parameters] at size interval missed
      rw [interval, missed] at cycle
      rw [size] at slots
      exact ⟨bounds.append slots, same'.trans same, c', _, _, budgeted', keeps _ _ _ cycle holds⟩
    · exact meets
  exact (kept _ _ rfl rfl sized).1

section Conditions

variable {s : FetchStage (Engine ρ × List EngineEvent) μ π} {cycles : Nat}
  (start : Budgeted P s (.connect s.fetcher.fetchSize) [] [])
  (sized : ∀ event ∈
    (s.simulate (engineServers R bound instructionMemory P.toServer) cycles).1.fetch.2,
    event.SizedAnswer)

include start sized

/-- Requests are not made every cycle. -/
theorem in_bounds_of_spaced (spaced : 1 < s.fetcher.fetchInterval)
    (first : Flow.Spaced (flow s (.connect s.fetcher.fetchSize) [])) :
    InBounds s.fetcher.fetchSize
      (s.simulate (engineServers R bound instructionMemory P.toServer) cycles).2 := by
  apply run_in_bounds R bound instructionMemory P start (fun _ _ => True) Flow.Spaced
    first _ _ cycles (Machine.meets_of_forall _ s _ fun _ _ => trivial) sized
  · intro t c asked fresh _ budgeted flows _
    apply budgeted.roomy
    intro _
    exact flows.apart.imp List.length_eq_zero_iff.mp List.length_eq_zero_iff.mp
  · intro reaches x y cycle flows
    exact flows.cycle spaced cycle

/-- Requests and penalties are aligned. -/
theorem in_bounds_of_phase (prompt : ∀ t, P.pending t = [])
    (positive : 0 < s.fetcher.misspredictPenalty)
    (safe : s.fetcher.misspredictPenalty ≠ 3 ∨ s.fetcher.fetchSize < 4)
    (first : Flow.Phase s.fetcher.misspredictPenalty
      (flow s (.connect s.fetcher.fetchSize) [])) :
    InBounds s.fetcher.fetchSize
      (s.simulate (engineServers R bound instructionMemory P.toServer) cycles).2 := by
  apply run_in_bounds R bound instructionMemory P start (fun _ _ => True)
    (Flow.Phase s.fetcher.misspredictPenalty) first _ _ cycles
    (Machine.meets_of_forall _ s _ fun _ _ => trivial) sized
  · intro t c asked fresh same budgeted phase _
    have size := congrArg Prod.fst same
    have missed := congrArg (fun p => p.2.2) same
    dsimp only [parameters] at size missed
    rw [← missed] at phase
    apply budgeted.roomy_of_phase prompt (by omega) phase
    rw [missed, size]
    exact safe
  · intro reaches x y cycle phase
    exact phase.cycle prompt positive cycle

/-- The run keeps answers apart. -/
theorem in_bounds_of_apart
    (apart : Machine.Meets (FetchStage.cycle (engineServers R bound instructionMemory P.toServer))
      AnswersApart s (List.replicate cycles ())) :
    InBounds s.fetcher.fetchSize
      (s.simulate (engineServers R bound instructionMemory P.toServer) cycles).2 := by
  apply run_in_bounds R bound instructionMemory P start AnswersApart (fun _ => True)
    trivial _ _ cycles apart sized
  · intro t c asked fresh _ budgeted _ here
    apply budgeted.roomy
    intro reaches
    apply (here reaches).imp_right
    intro sent
    rw [budgeted.predicted.shape] at sent
    cases fresh with
    | nil => rfl
    | cons p fresh =>
      have unsent := sent (Fetcher.freshEntry p) (by simp [Fetcher.aligned])
      cases unsent
  · intro _ _ _ _ _
    trivial

end Conditions

end WithPredictor

section WithoutPredictor

/-- Between cycles, without a predictor: the entries are those fetched in the last
cycle, and all of them leave in the next one. -/
structure Direct (s : FetchStage (Engine ρ × List EngineEvent) μ π)
    (fresh : List InstructionPacket) : Prop where
  unpredicted : s.Unpredicted
  asking : s.Asking fresh
  checks : s.fetcher.flagsToCheck = { sentToMemory := true }
  memoryUnsent : s.ports.instructionMemory.sentRequests = []
  capacity : s.ports.instructionMemory.bufferSize = s.fetcher.fetchSize
  shape : s.fetcher.contents = fresh.map Fetcher.freshEntry
  answers : bytes s.ports.fetch.readableResponses < s.fetcher.fetchSize

variable (R : TraceReader ρ) (bound : Nat)
  (instructionMemory : Server μ InstructionPacket InstructionPacket)
  (predictor : Server π PredictorPacket PredictorPacket)

theorem Direct.cycle {s : FetchStage (Engine ρ × List EngineEvent) μ π}
    {fresh : List InstructionPacket} (before : Direct s fresh)
    (sized : ∀ event ∈
      (s.cycle (engineServers R bound instructionMemory predictor) ()).1.fetch.2,
      event.SizedAnswer) :
    Direct (s.cycle (engineServers R bound instructionMemory predictor) ()).1 s.taken ∧
      parameters (s.cycle (engineServers R bound instructionMemory predictor) ()).1 =
        parameters s ∧
      ∀ slot ∈ Fetcher.slots
          (fetcherLog (s.cycle (engineServers R bound instructionMemory predictor) ()).2),
        slot < s.fetcher.fetchSize := by
  obtain ⟨unpredicted, asking, checks, memoryUnsent, capacity, shape, answers⟩ := before
  have short : fresh.length ≤ s.ports.instructionMemory.bufferSize := by
    have counted := length_le_bytes asking.heldSized
    have fits := asking.fits
    omega
  have all := Connection.takes_all memoryUnsent short
  obtain ⟨contents', memorySize, _⟩ :=
    Fetcher.clockBuffered_unpredicted unpredicted.predictor checks shape
  rw [all, List.drop_length] at contents'
  have left : s.buffered.2.1.contents.map (·.instruction) = [] := by
    unfold FetchStage.buffered
    rw [contents']
    rfl
  have taken : s.taken = s.ports.fetch.readableResponses := by
    unfold FetchStage.taken
    rw [unpredicted.reaches]
    rfl
  obtain ⟨asking', waiting', slots⟩ := asking.cycle R bound instructionMemory predictor left
    (by intro p member; cases member)
    (by rw [bytes_nil, Nat.zero_add, taken]; exact answers) sized
  obtain ⟨contents, _, flags⟩ := FetchStage.cycle_taken
    (engineServers R bound instructionMemory predictor) unpredicted.unsent
  obtain ⟨memory', _⟩ := FetchStage.cycle_ports
    (engineServers R bound instructionMemory predictor) unpredicted.unsent
  have sameParameters := parameters_cycle (engineServers R bound instructionMemory predictor)
    unpredicted.unsent
  have size' : (s.cycle (engineServers R bound instructionMemory predictor)
      ()).1.fetcher.fetchSize = s.fetcher.fetchSize := congrArg Prod.fst sameParameters
  refine ⟨?_, sameParameters, slots⟩
  constructor
  · exact unpredicted.cycle _
  · exact asking'
  · rw [flags, checks]
  · rw [memory']
    exact Connection.sentRequests_swap _
  · rw [memory', Connection.bufferSize_swap, size', ← capacity, ← memorySize]
    exact instructionMemory.bufferSize _ _
  · rw [contents]
    unfold FetchStage.buffered
    rw [contents']
    rfl
  · rw [size']
    have positive := asking.fits
    rcases waiting' with none | ⟨_, room⟩
    · rw [none, bytes_nil]
      omega
    · omega

theorem run_in_bounds_without {s : FetchStage (Engine ρ × List EngineEvent) μ π}
    (start : Direct s []) (cycles : Nat)
    (sized : ∀ event ∈
      (s.simulate (engineServers R bound instructionMemory predictor) cycles).1.fetch.2,
      event.SizedAnswer) :
    InBounds s.fetcher.fetchSize
      (s.simulate (engineServers R bound instructionMemory predictor) cycles).2 := by
  have kept := FetchStage.simulate_induction
    (engineServers R bound instructionMemory predictor) (s := s)
    (P := fun t log => (∀ event ∈ t.fetch.2, event.SizedAnswer) →
      InBounds s.fetcher.fetchSize log ∧ parameters t = parameters s ∧ ∃ fresh, Direct t fresh)
    (by
      intro _
      refine ⟨?_, rfl, [], start⟩
      intro slot member
      cases member)
    (by
      intro t log before sized'
      obtain ⟨bounds, same, fresh, direct⟩ := before fun event member =>
        sized' event (List.mem_append_left _ member)
      obtain ⟨direct', same', slots⟩ := direct.cycle R bound instructionMemory predictor sized'
      have size := congrArg Prod.fst same
      dsimp only [parameters] at size
      rw [size] at slots
      exact ⟨bounds.append slots, same'.trans same, _, direct'⟩)
    cycles
  exact (kept sized).1

end WithoutPredictor

/-- For every reader of sized instructions, every memory, every in-order predictor and
every configuration: in a simulation of any length no slot is past the end of the array,
if there is no predictor, or the interval of the requests is not one, or the predictor
is prompt and the penalty is not three or the array has less than four entries, or else
if answers are kept apart in every cycle. -/
theorem fetch_buffer_in_bounds (R : TraceReader ρ) (bound : Nat)
    (instructionMemory : Server μ InstructionPacket InstructionPacket) (P : InOrderPredictor π)
    {fetchSize fetchInterval misspredictPenalty : Option Int} {hasPredictor : Bool}
    {s : FetchStage (Engine ρ × List EngineEvent) μ π}
    (configured : s.Configured fetchSize fetchInterval misspredictPenalty hasPredictor)
    (oneCore : s.fetch.1.numberOfFetchers = 1)
    (buffered : Engine.Sized (s.fetch.1.fetchBuffers 0))
    (idle : P.pending s.predictor = []) (cycles : Nat)
    (sized : ∀ event ∈
      (s.simulate (engineServers R bound instructionMemory P.toServer) cycles).1.fetch.2,
      event.SizedAnswer)
    (small : s.fetcher.fetchSize < 2147483648)
    (safe : hasPredictor = false ∨ s.fetcher.fetchInterval ≠ 1 ∨
      ((∀ t, P.pending t = []) ∧
        (s.fetcher.misspredictPenalty ≠ 3 ∨ s.fetcher.fetchSize < 4)) ∨
      Machine.Meets (FetchStage.cycle (engineServers R bound instructionMemory P.toServer))
        AnswersApart s (List.replicate cycles ())) :
    InBounds s.fetcher.fetchSize
      (s.simulate (engineServers R bound instructionMemory P.toServer) cycles).2 := by
  obtain ⟨asking, unanswered, unasked⟩ := configured.asking small oneCore buffered
  obtain ⟨size, interval, penalty, _, intervalPositive, penaltyPositive, fetcher, ports⟩ :=
    Fetcher.configure_eq configured
  have sameSize : s.fetcher.fetchSize = size := by rw [fetcher]
  have sameInterval : s.fetcher.fetchInterval = interval := by rw [fetcher]
  have samePenalty : s.fetcher.misspredictPenalty = penalty := by rw [fetcher]
  cases hasPredictor with
  | false =>
    apply run_in_bounds_without R bound instructionMemory P.toServer _ cycles sized
    constructor
    · exact configured.unpredicted
    · exact asking
    · rw [fetcher]
    · rw [ports]
      rfl
    · rw [ports, sameSize]
      exact Connection.bufferSize_connect (by omega)
    · rw [fetcher]
      rfl
    · rw [unanswered]
      exact asking.fits
  | true =>
    have start : Budgeted P s (.connect s.fetcher.fetchSize) [] [] := by
      constructor
      · exact configured.predicted P idle
      · exact asking
      · exact Connection.bufferSize_connect small
      · exact Or.inl unanswered
    rcases safe with without | spaced | ⟨prompt, safe⟩ | apart
    · cases without
    · refine in_bounds_of_spaced R bound instructionMemory P start sized (by omega) ?_
      constructor
      · exact Or.inl (List.length_eq_zero_iff.mpr unasked)
      · exact Or.inl (List.length_eq_zero_iff.mpr unasked)
      · exact Or.inr rfl
    · refine in_bounds_of_phase R bound instructionMemory P start sized prompt (by omega) safe ?_
      have begins : (flow s (.connect s.fetcher.fetchSize) []).currentPenalty = 0 := by
        unfold flow
        rw [fetcher]
      rw [samePenalty]
      match penalty with
      | 0 => omega
      | 1 => exact Or.inl ⟨begins, Or.inr ⟨rfl, rfl⟩⟩
      | 2 => exact Or.inl ⟨begins, rfl, rfl⟩
      | 3 => exact Or.inl ⟨begins, Or.inl rfl⟩
      | n + 4 => exact Or.inl ⟨begins, rfl, rfl⟩
    · exact in_bounds_of_apart R bound instructionMemory P start sized apart

/-- With a request every second cycle. -/
theorem fetch_buffer_in_bounds_interval_2 :
    InBounds 2 ((oneOctetStage 2 3).simulate sinucaServers 8).2 :=
  fetch_buffer_in_bounds sinucaTraceReader 16 simpleInstructionMemory hardwiredPredictor
    (show (oneOctetStage 2 3).Configured (some 2) (some 2) (some 3) true from rfl) rfl
    (by decide) rfl 8 (by decide +kernel) (by decide) (Or.inr (Or.inl (by decide)))

/-- Instructions of one and of three octets, and a branch of two. -/
def fewOctets : StaticDictionary where
  blocks := [[{ instSize := 1 }], [{ instSize := 3 }], [{ instSize := 2, branchType := .cond }]]
  nonempty := by simp
  size_lt := by simp

/-- A predictor that is wrong about the branch. -/
def fewOctetsStage : FetchStage (Engine SinucaTraceReader × List EngineEvent)
    SimpleInstructionMemory HardwiredPredictor :=
  .ofTrace 4 1 3 { noBranch := false } fewOctets
    { dynamic := [.basicBlock 0, .basicBlock 1, .basicBlock 2] ++
        List.replicate 12 (.basicBlock 0)
      memory := [] }

/-- With a request every cycle, a penalty of three and four entries, an answer finds
entries that its request left out, and a slot past the end is zero-filled. -/
theorem fetch_buffer_overflows :
    fewOctetsStage.Configured (some 4) (some 1) (some 3) true ∧
    (fewOctetsStage.simulate sinucaServers 13).1.fetch.1.end_ = false ∧
    (fewOctetsStage.simulate sinucaServers 13).1.fetch.1.error = false ∧
    (∀ event ∈ (fewOctetsStage.simulate sinucaServers 13).1.fetch.2, event.SizedAnswer) ∧
    ¬ InBounds 4 (fewOctetsStage.simulate sinucaServers 13).2 :=
  ⟨rfl, by decide +kernel, by decide +kernel, by decide +kernel, by decide +kernel⟩

end Sinuca3.Guarantees
