import Sinuca3.Source.Engine.Engine

/-!
# Runs of the engine

All a clock does beyond moving packets is to call the reader, so what each of these
calls keeps, a run keeps. `KeptByCalls.run` and `setupLoop_keeps` say so of any
property the connections have no part in.
-/
namespace Sinuca3.Source
open Lib

namespace Engine

variable {ρ : Type} (R : TraceReader ρ)

/-- Set-up, and if it succeeds the run after it: `Simulate` up to any point. -/
def simulate (bound : Nat) (reader : ρ) (garbage : Nat → InstructionPacket)
    (connections : Nat → FetchConnection) (numberOfConnections : Nat) (ops : List Op) :
    Engine ρ × List EngineEvent :=
  let setup := setupSimulation R reader garbage connections numberOfConnections
  if setup.1 then setup.2
  else
    let rest := Machine.run (step R bound) setup.2.1 ops
    (rest.1, setup.2.2 ++ rest.2)

/-- The property of an engine and its log does not look at the connections, and every
call of the reader keeps it. -/
structure KeptByCalls (P : Engine ρ → List EngineEvent → Prop) : Prop where
  connections : ∀ e log connections, P e log → P { e with connections := connections } log
  call : ∀ e log id, P e log →
    P (e.sendBufferedAndFetch R id).2.1 (log ++ (e.sendBufferedAndFetch R id).2.2)

namespace KeptByCalls

variable {R} {P : Engine ρ → List EngineEvent → Prop} (kept : KeptByCalls R P)
include kept

theorem fetchLoop (id : Nat) (request : Int) (bound : Nat) (weight : Int) (e : Engine ρ)
    (log : List EngineEvent) (before : P e log) :
    P (fetchLoop R id request bound weight e).1
      (log ++ (fetchLoop R id request bound weight e).2) := by
  induction bound generalizing weight e log with
  | zero => simpa [Engine.fetchLoop] using before
  | succ bound ih =>
    unfold Engine.fetchLoop
    split
    · have sent := kept.call e log id before
      rcases result : e.sendBufferedAndFetch R id with ⟨_ | _, e', events⟩ <;> rw [result] at sent
      · rw [← List.append_assoc]
        exact ih _ e' _ sent
      · exact sent
    · simpa using before

theorem clockConnection (bound : Nat) (e : Engine ρ) (id : Nat) (log : List EngineEvent)
    (before : P e log) :
    P (e.clockConnection R bound id).1 (log ++ (e.clockConnection R bound id).2) := by
  unfold Engine.clockConnection
  split
  · simpa using before
  · rename_i request c _
    have received : P (e.setConnection id c) log := kept.connections _ _ _ before
    unfold Engine.fetch
    split
    · exact kept.call _ _ id received
    · exact kept.fetchLoop id request bound _ _ _ received

theorem clock (bound : Nat) (e : Engine ρ) (log : List EngineEvent) (before : P e log) :
    P (e.clock R bound).1 (log ++ (e.clock R bound).2) := by
  unfold Engine.clock
  apply Machine.run_induction (Engine.clockConnection R bound)
    (P := fun t _ events => P t (log ++ events))
  · simpa using before
  · intro t ids events id keeps
    rw [← List.append_assoc]
    exact kept.clockConnection bound t id _ keeps

theorem step (bound : Nat) (e : Engine ρ) (op : Op) (log : List EngineEvent) (before : P e log) :
    P (e.step R bound op).1 (log ++ (e.step R bound op).2) := by
  unfold Engine.step
  cases op with
  | clock => exact kept.clock bound e log before
  | posClock =>
    rw [List.append_nil]
    exact kept.connections _ _ _ before
  | sendRequest id request =>
    dsimp only
    split
    · simpa using before
    · rw [List.append_nil]
      exact kept.connections _ _ _ before
  | getResponse id =>
    dsimp only
    split
    · simpa using before
    · rw [List.append_nil]
      exact kept.connections _ _ _ before

theorem run (bound : Nat) (e : Engine ρ) (ops : List Op) (log : List EngineEvent)
    (before : P e log) :
    P (Machine.run (Engine.step R bound) e ops).1
      (log ++ (Machine.run (Engine.step R bound) e ops).2) := by
  apply Machine.run_induction (Engine.step R bound) (P := fun t _ events => P t (log ++ events))
  · simpa using before
  · intro t done events op keeps
    rw [← List.append_assoc]
    exact kept.step bound t op _ keeps

end KeptByCalls

/-- And what each call of the set-up keeps, the set-up keeps, however it ends. -/
theorem setupLoop_keeps {P : Engine ρ → List EngineEvent → Prop}
    (call : ∀ (e e' : Engine ρ) log id,
      e'.traceReader = (R.fetch e.traceReader (e.fetchBuffers id) id).2.2 →
      e'.fetchedInstructions =
        (if (R.fetch e.traceReader (e.fetchBuffers id) id).1 = .ok then e.fetchedInstructions + 1
        else e.fetchedInstructions) →
      P e log → P e' (log ++ [.fetched id (R.fetch e.traceReader (e.fetchBuffers id) id).1
        (R.fetch e.traceReader (e.fetchBuffers id) id).2.1]))
    (ids : List Nat) (e : Engine ρ) (log : List EngineEvent) (before : P e log) :
    P (setupLoop R ids e).2.1 (log ++ (setupLoop R ids e).2.2) := by
  induction ids generalizing e log with
  | nil => simpa [setupLoop] using before
  | cons id ids ih =>
    unfold setupLoop
    dsimp only
    split
    · rename_i failed
      refine call e _ log id rfl ?_ before
      rw [if_neg failed]
    · rename_i ok
      rw [ne_eq, not_not] at ok
      have after := ih _ _ (call e { e with
        traceReader := (R.fetch e.traceReader (e.fetchBuffers id) id).2.2
        fetchBuffers := Function.update e.fetchBuffers id
          (R.fetch e.traceReader (e.fetchBuffers id) id).2.1
        fetchedInstructions := e.fetchedInstructions + 1 } log id rfl (by rw [if_pos ok]) before)
      simpa using after

end Engine

end Sinuca3.Source
