import Sinuca3.Lib.Follows
import Sinuca3.Source.Engine.PredictedStage

/-!
# Each buffered instruction is handed on once

A fetcher with an in-order predictor sends every instruction it buffers to the memory
and to the predictor, takes each response for the entry whose query it answers, and lets
an entry go when both are done with it. The stages of an instruction follow one another
at every moment of a simulation, whatever the memory, the component fetched from and the
delays of the predictor do.
-/
namespace Sinuca3.Guarantees
open Sinuca3.Source Lib

/-! The instruction that an event hands on, stage by stage. -/

def appending : FetcherEvent → Option InstructionPacket
  | .received _ response => response
  | _ => none

def storing : FetcherEvent → Option InstructionPacket
  | .sentToMemory instruction => some instruction
  | _ => none

def asking : FetcherEvent → Option InstructionPacket
  | .sentToPredictor instruction => some instruction
  | _ => none

def attributing : FetcherEvent → Option InstructionPacket
  | .attributed _ instruction _ => some instruction
  | _ => none

def leaving : FetcherEvent → Option InstructionPacket
  | .unbuffered entry => some entry.instruction
  | _ => none

/-- The responses taken. -/
def responding : FetcherEvent → Option PredictorPacket
  | .attributed _ _ response => some response
  | _ => none

/-- The `n`-th response goes to the `n`-th entry: with `k` entries gone it is the one
at `n - k`. And the assertion holds: it is about the instruction of this entry. -/
def Positioned (log : List FetcherEvent) : FetcherEvent → Prop
  | .attributed i instruction response =>
    i + (log.filterMap leaving).length = (log.filterMap attributing).length ∧
      response.instruction = instruction
  | _ => True

/-- The responses that wait for the fetcher. -/
def waitingResponses : Option PredictorConnection → List PredictorPacket
  | none => []
  | some c => c.readableResponses

/-- What a simulation does with the instructions buffered. -/
structure HandedOn {φ μ π : Type} (s : FetchStage φ μ π) (log : List StageEvent) : Prop where
  toMemory : Follows appending storing (fetcherLog log)
  toPredictor : Follows appending asking (fetcherLog log)
  attributed : Follows asking attributing (fetcherLog log)
  leavesStored : Follows storing leaving (fetcherLog log)
  leavesPredicted : Follows attributing leaving (fetcherLog log)
  positioned : Machine.Explained Positioned (fetcherLog log)
  /-- The responses taken are those the predictor sent, each once and in order. -/
  responses : (fetcherLog log).filterMap responding ++ waitingResponses s.ports.predictor =
    answered log

section Cycle

variable {φ μ π : Type}

/-- Between cycles, the instructions appended are those gone, those asked about and
those fetched since. -/
structure Ledger (asked fresh : List InstructionPacket) (s : FetchStage φ μ π)
    (log : List StageEvent) : Prop where
  handed : HandedOn s log
  stored : (fetcherLog log).filterMap storing ++ fresh = (fetcherLog log).filterMap appending
  asks : (fetcherLog log).filterMap asking ++ fresh = (fetcherLog log).filterMap appending
  attributes : (fetcherLog log).filterMap attributing ++ asked =
    (fetcherLog log).filterMap asking
  leaves : (fetcherLog log).filterMap leaving = (fetcherLog log).filterMap attributing

/-- What the stages pick from the attributions. -/
theorem attributions_stages (i : Nat) (asked : List InstructionPacket)
    (responses : List PredictorPacket) (enough : responses.length ≤ asked.length) :
    (Fetcher.attributions i asked responses).filterMap appending = [] ∧
    (Fetcher.attributions i asked responses).filterMap storing = [] ∧
    (Fetcher.attributions i asked responses).filterMap asking = [] ∧
    (Fetcher.attributions i asked responses).filterMap leaving = [] ∧
    (Fetcher.attributions i asked responses).filterMap attributing =
      asked.take responses.length ∧
    (Fetcher.attributions i asked responses).filterMap responding = responses := by
  induction responses generalizing i asked with
  | nil => cases asked <;> exact ⟨rfl, rfl, rfl, rfl, rfl, rfl⟩
  | cons response responses ih =>
    cases asked with
    | nil => simp at enough
    | cons instruction asked =>
      obtain ⟨appends, stores, asks, leaves, attributes, responds⟩ :=
        ih (i + 1) asked (by simpa using enough)
      unfold Fetcher.attributions
      refine ⟨appends, stores, asks, leaves, ?_, ?_⟩
      · exact congrArg (instruction :: ·) attributes
      · exact congrArg (response :: ·) responds

theorem receptions_stages (slot : Nat) (responses : List InstructionPacket) :
    (Fetcher.receptions slot responses).filterMap storing = [] ∧
    (Fetcher.receptions slot responses).filterMap asking = [] ∧
    (Fetcher.receptions slot responses).filterMap leaving = [] ∧
    (Fetcher.receptions slot responses).filterMap attributing = [] ∧
    (Fetcher.receptions slot responses).filterMap responding = [] := by
  induction responses generalizing slot with
  | nil => exact ⟨rfl, rfl, rfl, rfl, rfl⟩
  | cons response responses ih => exact ih (slot + 1)

/-- Responses about the entries asked about, in order, are positioned. -/
theorem attributions_positioned (responses : List PredictorPacket) (i : Nat)
    (asked : List InstructionPacket) (log : List FetcherEvent)
    (old : Machine.Explained Positioned log)
    (count : i + (log.filterMap leaving).length = (log.filterMap attributing).length)
    (about : responses.map PredictorPacket.instruction <+: asked) :
    Machine.Explained Positioned (log ++ Fetcher.attributions i asked responses) := by
  induction responses generalizing i asked log with
  | nil => cases asked <;> simpa [Fetcher.attributions] using old
  | cons response responses ih =>
    cases asked with
    | nil => simp at about
    | cons instruction asked =>
      obtain ⟨same, rest⟩ := List.cons_prefix_cons.mp about
      have here : Positioned log (.attributed i instruction response) := ⟨count, same⟩
      have next := ih (i + 1) asked (log ++ [.attributed i instruction response])
        (old.concat here)
        (by
          rw [List.filterMap_append, List.filterMap_append, List.length_append,
            List.length_append]
          change i + 1 + (_ + 0) = _ + 1
          omega)
        rest
      rw [List.append_assoc] at next
      exact next

theorem map_stages {α : Type} (stage : FetcherEvent → Option InstructionPacket)
    (event : α → FetcherEvent) (instruction : α → InstructionPacket)
    (picks : ∀ x, stage (event x) = some (instruction x)) (xs : List α) :
    (xs.map event).filterMap stage = xs.map instruction := by
  rw [List.filterMap_map, ← List.filterMap_eq_map]
  exact List.filterMap_congr fun x _ => picks x

theorem map_silent {α β : Type} (stage : FetcherEvent → Option β) (event : α → FetcherEvent)
    (silent : ∀ x, stage (event x) = none) (xs : List α) :
    (xs.map event).filterMap stage = [] := by
  rw [List.filterMap_map]
  exact List.filterMap_eq_nil_iff.mpr fun x _ => silent x

/-- The events of a cycle until the first entry leaves. -/
def opening (sent asked : List InstructionPacket) (responses : List PredictorPacket) :
    List FetcherEvent :=
  sent.map .sentToMemory ++ sent.map .sentToPredictor ++
    Fetcher.attributions 0 asked responses

/-- What the stages pick from them. -/
theorem opening_stages (sent asked : List InstructionPacket) (responses : List PredictorPacket)
    (enough : responses.length ≤ asked.length) :
    (opening sent asked responses).filterMap appending = [] ∧
    (opening sent asked responses).filterMap storing = sent ∧
    (opening sent asked responses).filterMap asking = sent ∧
    (opening sent asked responses).filterMap leaving = [] ∧
    (opening sent asked responses).filterMap attributing = asked.take responses.length ∧
    (opening sent asked responses).filterMap responding = responses := by
  obtain ⟨appends, stores, asks, leaves, attributes, responds⟩ :=
    attributions_stages 0 asked responses enough
  have silent : ∀ {β : Type} (stage : FetcherEvent → Option β),
      (∀ p, stage (.sentToMemory p) = none) → (∀ p, stage (.sentToPredictor p) = none) →
      (opening sent asked responses).filterMap stage =
        (Fetcher.attributions 0 asked responses).filterMap stage := by
    intro β stage memory predictor
    unfold opening
    rw [List.filterMap_append, List.filterMap_append, map_silent stage _ memory,
      map_silent stage _ predictor]
    rfl
  refine ⟨?_, ?_, ?_, ?_, ?_, ?_⟩
  · rw [silent appending (fun _ => rfl) (fun _ => rfl), appends]
  · unfold opening
    rw [List.filterMap_append, List.filterMap_append,
      map_stages storing .sentToMemory id (fun _ => rfl),
      map_silent storing .sentToPredictor (fun _ => rfl), stores]
    simp
  · unfold opening
    rw [List.filterMap_append, List.filterMap_append,
      map_silent asking .sentToMemory (fun _ => rfl),
      map_stages asking .sentToPredictor id (fun _ => rfl), asks]
    simp
  · rw [silent leaving (fun _ => rfl) (fun _ => rfl), leaves]
  · rw [silent attributing (fun _ => rfl) (fun _ => rfl), attributes]
  · rw [silent responding (fun _ => rfl) (fun _ => rfl), responds]

/-- The other events of a cycle. -/
def closing (s : FetchStage φ μ π) (gone : List InstructionPacket) (usage : Nat) :
    List FetcherEvent :=
  (gone.map Fetcher.predictedEntry).map .unbuffered ++ s.takings usage

/-- What the stages pick from them. -/
theorem closing_stages (s : FetchStage φ μ π) (gone : List InstructionPacket) (usage : Nat) :
    (closing s gone usage).filterMap appending = s.taken ∧
    (closing s gone usage).filterMap storing = [] ∧
    (closing s gone usage).filterMap asking = [] ∧
    (closing s gone usage).filterMap leaving = gone ∧
    (closing s gone usage).filterMap attributing = [] ∧
    (closing s gone usage).filterMap responding = [] := by
  obtain ⟨stores, asks, leaves, attributes, responds⟩ :=
    receptions_stages usage s.ports.fetch.readableResponses
  have appends := Fetcher.appended_receptions usage s.ports.fetch.readableResponses
  unfold closing FetchStage.takings FetchStage.taken
  simp only [List.filterMap_append]
  rw [map_silent appending _ (fun _ => rfl), map_silent storing _ (fun _ => rfl),
    map_silent asking _ (fun _ => rfl), map_silent attributing _ (fun _ => rfl),
    map_silent responding _ (fun _ => rfl),
    map_stages leaving _ FetchBufferEntry.instruction (fun _ => rfl)]
  have same : (gone.map Fetcher.predictedEntry).map FetchBufferEntry.instruction = gone := by
    rw [List.map_map]
    exact List.map_id gone
  rw [same]
  split
  · simp
  · rw [stores, asks, leaves, attributes, responds, List.append_nil, List.append_nil]
    exact ⟨appends, rfl, rfl, rfl, rfl, rfl⟩

/-- What the stages pick from a log with the events of a cycle behind it. -/
theorem cycle_stages (s : FetchStage φ μ π) (log : List FetcherEvent)
    (sent : List InstructionPacket) {asked : List InstructionPacket}
    {responses : List PredictorPacket} (enough : responses.length ≤ asked.length) (usage : Nat)
    {log' : List FetcherEvent}
    (whole : log' = log ++ opening sent asked responses ++
      closing s (asked.take responses.length) usage) :
    log'.filterMap appending = log.filterMap appending ++ s.taken ∧
    log'.filterMap storing = log.filterMap storing ++ sent ∧
    log'.filterMap asking = log.filterMap asking ++ sent ∧
    log'.filterMap leaving = log.filterMap leaving ++ asked.take responses.length ∧
    log'.filterMap attributing = log.filterMap attributing ++ asked.take responses.length ∧
    log'.filterMap responding = log.filterMap responding ++ responses := by
  obtain ⟨appends₁, stores₁, asks₁, leaves₁, attributes₁, responds₁⟩ :=
    opening_stages sent asked responses enough
  obtain ⟨appends₂, stores₂, asks₂, leaves₂, attributes₂, responds₂⟩ :=
    closing_stages s (asked.take responses.length) usage
  rw [whole]
  simp only [List.filterMap_append]
  rw [appends₁, appends₂, stores₁, stores₂, asks₁, asks₂, leaves₁, leaves₂, attributes₁,
    attributes₂, responds₁, responds₂]
  simp only [List.append_nil, and_self]

/-- Events that are no attributions are positioned. -/
theorem positioned_quiet {log more : List FetcherEvent}
    (old : Machine.Explained Positioned log) (none : more.filterMap attributing = []) :
    Machine.Explained Positioned (log ++ more) := by
  apply old.append
  intro front e back split
  have silent := List.filterMap_eq_nil_iff.mp none e (by rw [split]; simp)
  cases e with
  | attributed => cases silent
  | _ => trivial

/-- The positions of a cycle's attributions. -/
theorem opening_positioned (sent : List InstructionPacket) {asked : List InstructionPacket}
    {responses : List PredictorPacket} {log : List FetcherEvent}
    (old : Machine.Explained Positioned log)
    (leaves : log.filterMap leaving = log.filterMap attributing)
    (about : responses.map PredictorPacket.instruction <+: asked) :
    Machine.Explained Positioned (log ++ opening sent asked responses) := by
  have silent : ∀ stage : FetcherEvent → Option InstructionPacket,
      (∀ p, stage (.sentToMemory p) = none) → (∀ p, stage (.sentToPredictor p) = none) →
      (sent.map FetcherEvent.sentToMemory ++
        sent.map FetcherEvent.sentToPredictor).filterMap stage = [] := by
    intro stage memory predictor
    rw [List.filterMap_append, map_silent stage _ memory, map_silent stage _ predictor]
    rfl
  unfold opening
  rw [← List.append_assoc]
  apply attributions_positioned
  · exact positioned_quiet old (silent attributing (fun _ => rfl) (fun _ => rfl))
  · have gone := silent leaving (fun _ => rfl) (fun _ => rfl)
    have taken := silent attributing (fun _ => rfl) (fun _ => rfl)
    rw [List.filterMap_append (l := log), gone, List.filterMap_append (l := log), taken, leaves,
      Nat.zero_add]
  · exact about

/-- A cycle keeps the ledger. -/
theorem cycle_ledger (S : FetchStage.PredictedServers φ μ π) {s : FetchStage φ μ π}
    {c : PredictorConnection} {asked fresh : List InstructionPacket} {log : List StageEvent}
    (predicted : s.Predicted S.predictor c asked fresh) (ledger : Ledger asked fresh s log) :
    ∃ c', (s.cycle S.servers ()).1.Predicted S.predictor c'
        (asked.drop c.readableResponses.length ++ fresh.take (c.takes fresh.length))
        (fresh.drop (c.takes fresh.length) ++ s.taken) ∧
      Ledger (asked.drop c.readableResponses.length ++ fresh.take (c.takes fresh.length))
        (fresh.drop (c.takes fresh.length) ++ s.taken) (s.cycle S.servers ()).1
        (log ++ (s.cycle S.servers ()).2) ∧
      (fetcherLog (log ++ (s.cycle S.servers ()).2)).filterMap storing =
        (fetcherLog log).filterMap storing ++ fresh.take (c.takes fresh.length) := by
  obtain ⟨c', predicted', _, _, answers, _, events⟩ := predicted.cycle S
  obtain ⟨handed, stored, asks, attributes, leaves⟩ := ledger
  have enough := predicted.enough
  have about : c.readableResponses.map PredictorPacket.instruction <+: asked := by
    rw [predicted.outstanding]
    exact List.prefix_append _ _
  have whole : fetcherLog (log ++ (s.cycle S.servers ()).2) = fetcherLog log ++
      opening (fresh.take (c.takes fresh.length)) asked c.readableResponses ++
      closing s (asked.take c.readableResponses.length)
        (asked.length - c.readableResponses.length + fresh.length) := by
    rw [fetcherLog_append, events]
    unfold opening closing
    simp only [List.append_assoc]
  obtain ⟨_, stores₁, asks₁, leaves₁, attributes₁, _⟩ :=
    opening_stages (fresh.take (c.takes fresh.length)) asked c.readableResponses enough
  obtain ⟨_, stores₂, asks₂, leaves₂, attributes₂, _⟩ :=
    closing_stages s (asked.take c.readableResponses.length)
      (asked.length - c.readableResponses.length + fresh.length)
  obtain ⟨appending', storing', asking', leaving', attributing', responding'⟩ :=
    cycle_stages s (fetcherLog log) (fresh.take (c.takes fresh.length)) enough _ whole
  have positioned := opening_positioned (fresh.take (c.takes fresh.length))
    handed.positioned leaves about
  have sentFirst := List.take_append_drop (c.takes fresh.length) fresh
  have goneFirst := List.take_append_drop c.readableResponses.length asked
  have sameSent : (fetcherLog log).filterMap storing = (fetcherLog log).filterMap asking :=
    List.append_cancel_right (stored.trans asks.symm)
  refine ⟨c', predicted', ?_, storing'⟩
  constructor
  · constructor
    · rw [whole]
      apply Follows.quiet _ stores₂
      apply handed.toMemory.append
      rw [List.filterMap_append, stores₁, ← stored]
      exact (List.prefix_append_right_inj _).mpr (List.take_prefix _ _)
    · rw [whole]
      apply Follows.quiet _ asks₂
      apply handed.toPredictor.append
      rw [List.filterMap_append, asks₁, ← asks]
      exact (List.prefix_append_right_inj _).mpr (List.take_prefix _ _)
    · rw [whole]
      apply Follows.quiet _ attributes₂
      apply handed.attributed.append
      rw [List.filterMap_append, attributes₁, ← attributes]
      exact (List.prefix_append_right_inj _).mpr (List.take_prefix _ _)
    · -- What leaves was sent to the memory in an earlier cycle.
      rw [whole]
      apply (handed.leavesStored.quiet leaves₁).append
      rw [List.filterMap_append, List.filterMap_append, leaves₁, leaves₂, List.filterMap_append,
        stores₁, sameSent, ← attributes, leaves, List.append_nil, List.append_assoc]
      apply (List.prefix_append_right_inj _).mpr
      exact (List.take_prefix _ _).trans (List.prefix_append _ _)
    · -- And its response was taken just before.
      rw [whole]
      apply (handed.leavesPredicted.quiet leaves₁).append
      rw [List.filterMap_append, List.filterMap_append, leaves₁, leaves₂, List.filterMap_append,
        attributes₁, leaves]
      simp
    · rw [whole]
      exact positioned_quiet positioned attributes₂
    · have old := handed.responses
      rw [predicted.predictor] at old
      rw [predicted'.predictor, answered_append, ← old, responding']
      unfold waitingResponses
      dsimp only
      rw [answers]
  · rw [storing', appending', ← stored, List.append_assoc, ← List.append_assoc (List.take _ fresh),
      sentFirst, List.append_assoc]
  · rw [asking', appending', ← asks, List.append_assoc, ← List.append_assoc (List.take _ fresh),
      sentFirst, List.append_assoc]
  · rw [attributing', asking', ← attributes, List.append_assoc,
      ← List.append_assoc (List.take _ asked), goneFirst, List.append_assoc]
  · rw [leaving', attributing', leaves]

/-- The instructions not sent yet are sent in one of the next cycles: each of these
sends at least one. -/
theorem eventually_stored (S : FetchStage.PredictedServers φ μ π) (n : Nat)
    {s : FetchStage φ μ π} {c : PredictorConnection} {asked fresh : List InstructionPacket}
    {log : List StageEvent} (predicted : s.Predicted S.predictor c asked fresh)
    (ledger : Ledger asked fresh s log) {unsent : List InstructionPacket}
    (first : unsent <+: fresh) (few : unsent.length ≤ n) :
    ∃ more, (fetcherLog log).filterMap storing ++ unsent <+:
      (fetcherLog (log ++ (s.simulate S.servers more).2)).filterMap storing := by
  induction n generalizing s c asked fresh log unsent with
  | zero =>
    refine ⟨0, ?_⟩
    rw [List.eq_nil_of_length_eq_zero (Nat.le_zero.mp few), List.append_nil, fetcherLog_append,
      List.filterMap_append]
    exact List.prefix_append _ _
  | succ n ih =>
    obtain ⟨c', predicted', ledger', stored⟩ := cycle_ledger S predicted ledger
    rcases Nat.le_total unsent.length (c.takes fresh.length) with all | some
    · refine ⟨1, ?_⟩
      rw [FetchStage.simulate_succ]
      change _ <+: (fetcherLog (log ++ ((s.cycle S.servers ()).2 ++ []))).filterMap storing
      rw [List.append_nil, stored]
      apply (List.prefix_append_right_inj _).mpr
      exact List.prefix_take_iff.mpr ⟨first, all⟩
    · -- The rest of them is at the front of what the cycle leaves unsent.
      obtain ⟨rest, split⟩ := first
      have sent : fresh.take (c.takes fresh.length) = unsent.take (c.takes fresh.length) := by
        rw [← split] at some ⊢
        exact List.take_append_of_le_length some
      have left : unsent.drop (c.takes fresh.length) <+:
          fresh.drop (c.takes fresh.length) ++ s.taken := by
        refine ⟨rest ++ s.taken, ?_⟩
        rw [← List.append_assoc, ← List.drop_append_of_le_length some, split]
      have fewer : (unsent.drop (c.takes fresh.length)).length ≤ n := by
        have shorter := congrArg List.length split
        rw [List.length_append] at shorter
        rw [List.length_drop]
        rcases Nat.eq_zero_or_pos fresh.length with none | positive
        · omega
        · have moves := Connection.takes_pos predicted.unsent.2 positive
          omega
      obtain ⟨more, later⟩ := ih predicted' ledger' left fewer
      refine ⟨more + 1, ?_⟩
      rw [stored, sent, List.append_assoc, List.take_append_drop, List.append_assoc] at later
      exact later

end Cycle

/-- For every memory, every component fetched from, every in-order predictor and every
configuration: in a simulation of any length the instructions buffered are handed on,
and all of them are sent to the memory and to the predictor in the end. -/
theorem each_instruction_handed_on {φ μ π : Type} (S : FetchStage.PredictedServers φ μ π)
    {fetchSize fetchInterval misspredictPenalty : Option Int} {s : FetchStage φ μ π}
    (configured : s.Configured fetchSize fetchInterval misspredictPenalty true)
    (idle : S.predictor.pending s.predictor = []) (cycles : Nat) :
    HandedOn (s.simulate S.servers cycles).1 (s.simulate S.servers cycles).2 ∧
    ∃ more,
      (fetcherLog (s.simulate S.servers cycles).2).filterMap appending <+:
        (fetcherLog (s.simulate S.servers (cycles + more)).2).filterMap storing ∧
      (fetcherLog (s.simulate S.servers cycles).2).filterMap appending <+:
        (fetcherLog (s.simulate S.servers (cycles + more)).2).filterMap asking := by
  have ledgers : ∀ n, ∃ c asked fresh,
      (s.simulate S.servers n).1.Predicted S.predictor c asked fresh ∧
      Ledger asked fresh (s.simulate S.servers n).1 (s.simulate S.servers n).2 := by
    intro n
    apply FetchStage.simulate_induction S.servers
      (P := fun t log => ∃ c asked fresh,
        t.Predicted S.predictor c asked fresh ∧ Ledger asked fresh t log)
    · have predicted := configured.predicted S.predictor idle
      refine ⟨_, [], [], predicted, ?_⟩
      constructor
      · constructor
        · exact follows_nil
        · exact follows_nil
        · exact follows_nil
        · exact follows_nil
        · exact follows_nil
        · exact Machine.explained_nil _
        · rw [predicted.predictor]
          rfl
      · rfl
      · rfl
      · rfl
      · rfl
    · rintro t log ⟨c, asked, fresh, predicted, ledger⟩
      obtain ⟨c', predicted', ledger', _⟩ := cycle_ledger S predicted ledger
      exact ⟨c', _, _, predicted', ledger'⟩
  obtain ⟨c, asked, fresh, predicted, ledger⟩ := ledgers cycles
  obtain ⟨more, stored⟩ := eventually_stored S fresh.length predicted ledger
    (List.prefix_refl fresh) (Nat.le_refl _)
  obtain ⟨_, _, _, _, later⟩ := ledgers (cycles + more)
  have same := List.append_cancel_right (later.stored.trans later.asks.symm)
  rw [ledger.stored] at stored
  refine ⟨ledger.handed, more, ?_, ?_⟩
  · rw [FetchStage.simulate_add]
    exact stored
  · rw [← same, FetchStage.simulate_add]
    exact stored

def sinucaPredictedServers : FetchStage.PredictedServers
    (Engine SinucaTraceReader × List EngineEvent) SimpleInstructionMemory HardwiredPredictor :=
  { fetch := Engine.server sinucaTraceReader 16, instructionMemory := simpleInstructionMemory,
    predictor := hardwiredPredictor }

theorem each_instruction_handed_on_interval_2 :
    HandedOn ((oneOctetStage 2 3).simulate sinucaPredictedServers.servers 7).1
        ((oneOctetStage 2 3).simulate sinucaPredictedServers.servers 7).2 ∧
      ∃ more,
        (fetcherLog ((oneOctetStage 2 3).simulate sinucaPredictedServers.servers 7).2).filterMap
            appending <+:
          (fetcherLog ((oneOctetStage 2 3).simulate sinucaPredictedServers.servers
            (7 + more)).2).filterMap storing ∧
        (fetcherLog ((oneOctetStage 2 3).simulate sinucaPredictedServers.servers 7).2).filterMap
            appending <+:
          (fetcherLog ((oneOctetStage 2 3).simulate sinucaPredictedServers.servers
            (7 + more)).2).filterMap asking :=
  each_instruction_handed_on sinucaPredictedServers
    (show (oneOctetStage 2 3).Configured (some 2) (some 2) (some 3) true from rfl) rfl 7

end Sinuca3.Guarantees
