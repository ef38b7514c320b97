import Sinuca3.Source.Engine.PredictedStage
import Sinuca3.Source.StdComponents.BoomFetchScans

/-!
# The fetch stage with boom fetch

The cycles of `Engine::Simulate` for a boom fetch in the place of the fetcher, with the
same components at the other ends. Its own components are clocked by it. The log is of
the cells of the buffer that its loops read or write.
-/
namespace Sinuca3.Source
open Lib

structure BoomStage (φ μ π : Type) where
  boomFetch : BoomFetch
  ports : BoomFetchPorts
  fetch : φ
  instructionMemory : μ
  predictor : π

def BoomFetchPorts.swapBuffers (ports : BoomFetchPorts) : BoomFetchPorts where
  fetch := ports.fetch.swapBuffers
  instructionMemory := ports.instructionMemory.swapBuffers
  predictor := ports.predictor.swapBuffers

namespace BoomStage

variable {φ μ π : Type} (S : FetchStage.Servers φ μ π)

/-- The connections that the boom fetch finds in its clock, after that of the component
it fetches from. -/
def found (s : BoomStage φ μ π) : BoomFetchPorts :=
  { s.ports with fetch := (S.fetch.clock s.fetch s.ports.fetch).2 }

@[simp] theorem found_predictor (s : BoomStage φ μ π) :
    (s.found S).predictor = s.ports.predictor := rfl

/-- One iteration of the loop of `Simulate`. -/
def cycle (s : BoomStage φ μ π) (_ : Unit) : BoomStage φ μ π × List Nat :=
  let clocked := s.boomFetch.clock (s.found S)
  let memory := S.instructionMemory.clock s.instructionMemory clocked.2.1.instructionMemory
  let predictor := S.predictor.clock s.predictor clocked.2.1.predictor
  let ports : BoomFetchPorts :=
    { fetch := clocked.2.1.fetch, instructionMemory := memory.2, predictor := predictor.2 }
  ({ boomFetch := clocked.1
     ports := ports.swapBuffers
     fetch := (S.fetch.clock s.fetch s.ports.fetch).1
     instructionMemory := memory.1
     predictor := predictor.1 }, s.boomFetch.accesses (s.found S))

/-- What a cycle leaves of the boom fetch and of each of its connections. -/
theorem cycle_eq (s : BoomStage φ μ π) : ∃ clocked, clocked = s.boomFetch.clock (s.found S) ∧
    (s.cycle S ()).1.boomFetch = clocked.1 ∧
    (s.cycle S ()).1.fetch = (S.fetch.clock s.fetch s.ports.fetch).1 ∧
    (s.cycle S ()).1.ports.fetch = clocked.2.1.fetch.swapBuffers ∧
    (s.cycle S ()).1.ports.instructionMemory =
      (S.instructionMemory.clock s.instructionMemory
        clocked.2.1.instructionMemory).2.swapBuffers ∧
    (s.cycle S ()).1.predictor = (S.predictor.clock s.predictor clocked.2.1.predictor).1 ∧
    (s.cycle S ()).1.ports.predictor =
      (S.predictor.clock s.predictor clocked.2.1.predictor).2.swapBuffers := by
  refine ⟨_, rfl, ?_⟩
  unfold cycle
  dsimp only [BoomFetchPorts.swapBuffers]
  generalize s.boomFetch.clock (s.found S) = clocked
  exact ⟨rfl, rfl, rfl, rfl, rfl, rfl⟩

/-- A simulation of the given number of cycles. -/
def simulate (s : BoomStage φ μ π) (cycles : Nat) : BoomStage φ μ π × List Nat :=
  Machine.run (cycle S) s (List.replicate cycles ())

theorem simulate_succ (s : BoomStage φ μ π) (cycles : Nat) :
    s.simulate S (cycles + 1) =
      (((s.simulate S cycles).1.cycle S ()).1,
        (s.simulate S cycles).2 ++ ((s.simulate S cycles).1.cycle S ()).2) := by
  unfold simulate
  rw [List.replicate_succ', Machine.run_concat]

/-- The stage whose boom fetch is as `Configure` left it. -/
def Configured (misspredictPenalty : Int) (fetchInterval fetchSize : Option Int)
    (interleavingFactor numberOfEntries : Int) (btbSendTo : Bool) (size : Int) (rasSendTo : Bool)
    (s : BoomStage φ μ π) : Prop :=
  BoomFetch.configure misspredictPenalty fetchInterval fetchSize interleavingFactor
    numberOfEntries btbSendTo size rasSendTo = .ok (s.boomFetch, s.ports)

/-- All accesses of a run are within bounds if those of each of its cycles are. -/
theorem accesses_iff (s : BoomStage φ μ π) (bound cycles : Nat) :
    (∀ cell ∈ (s.simulate S cycles).2, cell < bound) ↔
      Machine.Meets (cycle S) (fun t u => ∀ cell ∈ (t.cycle S u).2, cell < bound) s
        (List.replicate cycles ()) := by
  refine Machine.meets_iff_of_step (cycle S) _ (fun _ => True)
    (fun cells => ∀ cell ∈ cells, cell < bound) ?_ ?_ (fun _ _ _ => trivial)
    (fun _ _ _ => Iff.rfl) s trivial _
  · intro cell member
    cases member
  · intro cells more
    exact List.forall_mem_append

/-- A property of the states after the cycles of a run. -/
theorem states_iff (P : BoomStage φ μ π → Prop) {s : BoomStage φ μ π} (start : P s)
    (cycles : Nat) :
    (∀ n ≤ cycles, P (s.simulate S n).1) ↔
      Machine.Meets (cycle S) (fun t u => P (t.cycle S u).1) s (List.replicate cycles ()) := by
  rw [← Machine.reached_iff_meets (cycle S) (fun t u => P (t.cycle S u).1) (fun _ _ => True)
    (fun t _ => P t) trivial start (fun _ _ _ _ => trivial) (fun _ _ _ _ _ => Iff.rfl)]
  constructor
  · intro all js early
    obtain ⟨less, same⟩ := List.prefix_replicate_iff.mp early
    rw [same]
    exact all js.length less
  · intro all n less
    exact all (List.replicate n ()) (List.prefix_replicate_iff.mpr ⟨by simpa, by simp⟩)

/-- Between cycles, with a predictor that keeps its queries in order: every query under
way is for an entry that is sent and not checked. -/
structure Aligned (P : InOrderPredictor π) (s : BoomStage φ μ π)
    (checked sent fresh : List BoomFetchBufferEntry) : Prop where
  buffer : s.boomFetch.Aligned checked sent fresh
  unsent : s.ports.predictor.sentRequests = []
  unanswered : s.ports.predictor.sentResponses = []
  queries : ∀ q ∈ s.ports.predictor.readableRequests, q.type = .requestQuery
  outstanding : s.ports.predictor.readableResponses.length +
    ((P.pending s.predictor).length + s.ports.predictor.readableRequests.length) ≤ sent.length

/-- The stage as `Configure` left it, with a predictor that has nothing to answer. -/
theorem Configured.aligned (P : InOrderPredictor π) {misspredictPenalty : Int}
    {fetchInterval fetchSize : Option Int} {interleavingFactor numberOfEntries : Int}
    {btbSendTo : Bool} {size : Int} {rasSendTo : Bool} {s : BoomStage φ μ π}
    (configured : s.Configured misspredictPenalty fetchInterval fetchSize interleavingFactor
      numberOfEntries btbSendTo size rasSendTo)
    (idle : P.pending s.predictor = []) : s.Aligned P [] [] [] := by
  obtain ⟨_, _, bytes, _, _, _, _, positive, _, _, f, ports⟩ := BoomFetch.configure_ok configured
  have none : ∀ e : BoomFetchBufferEntry, e ∉ ([] : List BoomFetchBufferEntry) := fun _ =>
    List.not_mem_nil
  constructor
  · rw [f]
    exact ⟨rfl, fun e member => absurd member (none e), fun e member => absurd member (none e),
      fun e member => absurd member (none e), rfl, positive, rfl, rfl, Nat.le_refl 0⟩
  · rw [ports]
    rfl
  · rw [ports]
    rfl
  · rw [ports]
    intro q member
    cases member
  · rw [ports, idle]
    exact Nat.le_refl 0

/-- A cycle stays within the array if it does not fill up the buffer, and only then. -/
theorem Aligned.cycle (S : FetchStage.PredictedServers φ μ π) {s : BoomStage φ μ π}
    {checked sent fresh : List BoomFetchBufferEntry}
    (before : s.Aligned S.predictor checked sent fresh) :
    ((∀ cell ∈ (s.cycle S.servers ()).2, cell < s.boomFetch.fetchSize) ↔
        (s.cycle S.servers ()).1.boomFetch.fetchBufferUsage < s.boomFetch.fetchSize) ∧
      (s.cycle S.servers ()).1.boomFetch.fetchSize = s.boomFetch.fetchSize ∧
      ((s.cycle S.servers ()).1.boomFetch.fetchBufferUsage < s.boomFetch.fetchSize →
        ∃ checked' sent' fresh',
          (s.cycle S.servers ()).1.Aligned S.predictor checked' sent' fresh') := by
  obtain ⟨buffer, unsent, unanswered, queries, outstanding⟩ := before
  obtain ⟨reads, size, asked, views, later⟩ := buffer.clock (s.found S.servers)
    (show s.ports.predictor.readableResponses.length ≤ sent.length by omega)
  rw [found_predictor] at views later
  rw [unsent, unanswered, List.nil_append] at views
  unfold BoomStage.cycle
  dsimp only [BoomFetchPorts.swapBuffers]
  generalize s.boomFetch.clock (s.found S.servers) = clocked at size views later reads ⊢
  refine ⟨reads, size, fun fits => ?_⟩
  obtain ⟨checked', sent', fresh', aligned', count⟩ := later fits
  have answering := S.predictor.inOrder s.predictor clocked.2.1.predictor views.sentResponses
    (by rw [views.readableRequests]; exact queries)
  have lengths := congrArg List.length answering
  rw [List.length_append, List.length_append, List.length_map, List.length_map,
    views.readableRequests] at lengths
  have kept := S.predictor.sentRequests s.predictor clocked.2.1.predictor
  rw [views.sentRequests] at kept
  refine ⟨checked', sent', fresh', aligned', Connection.sentRequests_swap _,
    Connection.sentResponses_swap _, ?_, ?_⟩
  · rw [Connection.readableRequests_swap]
    change ∀ q ∈ (S.predictor.clock s.predictor clocked.2.1.predictor).2.sentRequests, _
    rw [kept]
    intro q member
    obtain ⟨p, _, rfl⟩ := List.mem_map.mp member
    rfl
  · rw [Connection.readableRequests_swap, Connection.readableResponses_swap]
    change (S.predictor.clock s.predictor clocked.2.1.predictor).2.sentResponses.length +
      ((S.predictor.pending (S.predictor.clock s.predictor clocked.2.1.predictor).1).length +
        (S.predictor.clock s.predictor clocked.2.1.predictor).2.sentRequests.length) ≤ _
    rw [kept, List.length_map]
    omega

/-- A run stays within the array as long as the buffer does not fill up. -/
theorem Aligned.accesses_iff (S : FetchStage.PredictedServers φ μ π) {s : BoomStage φ μ π}
    (start : s.Aligned S.predictor [] [] []) (cycles : Nat) :
    (∀ cell ∈ (s.simulate S.servers cycles).2, cell < s.boomFetch.fetchSize) ↔
      ∀ n ≤ cycles,
        (s.simulate S.servers n).1.boomFetch.fetchBufferUsage < s.boomFetch.fetchSize := by
  rw [BoomStage.accesses_iff, states_iff S.servers
    (fun t => t.boomFetch.fetchBufferUsage < s.boomFetch.fetchSize) start.buffer.room]
  apply Machine.meets_congr (BoomStage.cycle S.servers) _ _
    (fun t => t.boomFetch.fetchSize = s.boomFetch.fetchSize ∧
      ∃ checked sent fresh, t.Aligned S.predictor checked sent fresh)
  · rintro t ⟨⟩ ⟨size, checked, sent, fresh, aligned⟩
    rw [← size]
    exact (aligned.cycle S).1
  · rintro t ⟨⟩ ⟨size, checked, sent, fresh, aligned⟩ fits
    obtain ⟨_, size', later⟩ := aligned.cycle S
    rw [← size] at fits
    exact ⟨size'.trans size, later fits⟩
  · exact ⟨rfl, [], [], [], start⟩

/-- The stage of a machine with the given parameters of boom fetch, a hardwired predictor
and a simple instruction memory, on a trace of one thread, with the engine set up. -/
def ofTrace (penalty interval size : Nat) (p : HardwiredPredictor) (d : StaticDictionary)
    (thread : ThreadFiles) : BoomStage (Engine SinucaTraceReader × List EngineEvent)
      SimpleInstructionMemory HardwiredPredictor where
  boomFetch := {
    btb := {
      btb := fun _ => { numBanks := 1 }
      interleavingFactor := 1
      numEntries := 16
      interleavingBits := 0
      entriesBits := 4 }
    btbConnection := .connect size
    ras := { size := 2, buffer := Vector.replicate 2 0, top := ⟨0, Nat.two_pos⟩ }
    rasConnection := .connect size
    fetchSize := size
    fetchInterval := interval
    misspredictPenalty := penalty
    flagsToCheck := { sentToMemory := true, predictorCheck := true } }
  ports := {
    fetch := .connect size
    instructionMemory := .connect size
    predictor := .connect size }
  fetch := ((Engine.setupSimulation sinucaTraceReader (.openTrace d [thread] fun _ => 0)
    (fun _ => {}) (fun _ => .connect size) 1).2.1, [])
  instructionMemory := {}
  predictor := p

end BoomStage

end Sinuca3.Source
