import Sinuca3.Lib.CircularStack
import Sinuca3.Source.Engine.DefaultPackets
import Sinuca3.Source.Engine.Serving

/-!
# Return address stack

`predictors/ras.cpp`. The stack is a ring of `size` addresses, of which `top` (`end` in
the source) is the last that was pushed; neither pushing nor popping checks how many
there are.
-/
namespace Sinuca3.Source
open Lib

structure Ras where
  /-- The connection to `sendTo`, if one is configured. -/
  sendTo : Option PredictorConnection := none
  size : Nat
  buffer : Vector (BitVec 64) size
  top : Fin size
  numQueries : Nat := 0
  numUpdates : Nat := 0

namespace Ras

/-- `Configure`, once the parameters are read and have the right types. -/
def configure (size : Int) (sendTo : Bool) : Except (String × String) Ras :=
  if positive : size ≤ 0 then .error ("size", "is not > 0.")
  else
    .ok {
      sendTo := if sendTo then some (.connect 0) else none
      size := size.toNat
      buffer := Vector.replicate size.toNat 0
      top := ⟨0, by omega⟩ }

def popped (top : Fin n) : Fin n :=
  if top.val = 0 then ⟨n - 1, by have := top.isLt; omega⟩
  else ⟨top.val - 1, by have := top.isLt; omega⟩

def pushed (top : Fin n) : Fin n :=
  if more : top.val + 1 < n then ⟨top.val + 1, more⟩
  else ⟨0, by have := top.isLt; omega⟩

def requestQuery (ras : Ras) (instruction : InstructionPacket) : Ras × Option PredictorPacket :=
  let response : PredictorPacket :=
    { type := .responseTakeToAddress, instruction, target := ras.buffer[ras.top] }
  ({ ras with
      top := popped ras.top
      sendTo := ras.sendTo.map fun c => (c.sendRequest response).getD c },
    some response)

def requestUpdate (ras : Ras) (targetAddress : BitVec 64) : Ras :=
  let top := pushed ras.top
  { ras with top := top, buffer := ras.buffer.set top targetAddress }

/-- A packet of another type is only warned about. -/
def respond (ras : Ras) (packet : PredictorPacket) : Ras × Option PredictorPacket :=
  match packet.type with
  | .requestQuery => requestQuery { ras with numQueries := ras.numQueries + 1 } packet.instruction
  | .requestTargetUpdate =>
    (requestUpdate { ras with numUpdates := ras.numUpdates + 1 } packet.target, none)
  | _ => (ras, none)

def clock {n : Nat} : ComponentClock Ras n PredictorPacket PredictorPacket := clockOnce respond

/-- The instruction a request asks about. -/
def asked (packet : PredictorPacket) : Option InstructionPacket :=
  if packet.type = .requestQuery then some packet.instruction else none

theorem respond_answers (ras : Ras) (packet : PredictorPacket) :
    (respond ras packet).2.map PredictorPacket.instruction = asked packet := by
  unfold respond asked
  cases packet.type <;> rfl

theorem filterMap_asked (requests : List PredictorPacket) :
    requests.filterMap asked =
      (requests.filter (·.type = .requestQuery)).map PredictorPacket.instruction := by
  induction requests with
  | nil => rfl
  | cons packet requests ih =>
    by_cases query : packet.type = .requestQuery
    · have asks : asked packet = some packet.instruction := if_pos query
      rw [List.filterMap_cons_some asks, List.filter_cons_of_pos (by simpa using query),
        List.map_cons, ih]
    · have silent : asked packet = none := if_neg query
      rw [List.filterMap_cons_none silent, List.filter_cons_of_neg (by simpa using query), ih]

/-- The newest addresses, newest first. -/
def Holds (ras : Ras) (addresses : List (BitVec 64)) : Prop :=
  CircularStack.Holds ⟨ras.buffer, ras.top⟩ addresses

theorem configure_eq {size : Int} {sendTo : Bool} {ras : Ras}
    (configured : configure size sendTo = .ok ras) :
    0 < size ∧ ras.size = size.toNat ∧ ras.top.val = 0 ∧ ras.Holds [] := by
  unfold configure at configured
  split at configured
  · cases configured
  · rename_i positive
    cases configured
    exact ⟨Int.not_le.mp positive, rfl, rfl, CircularStack.holds_nil _⟩

theorem respond_size (ras : Ras) (packet : PredictorPacket) :
    (ras.respond packet).1.size = ras.size := by
  unfold respond
  cases packet.type <;> rfl

theorem Holds.update {ras : Ras} {addresses : List (BitVec 64)} (holds : ras.Holds addresses)
    (room : addresses.length < ras.size) (instruction : InstructionPacket) (target : BitVec 64) :
    (ras.respond { type := .requestTargetUpdate, instruction, target }).2 = none ∧
      (ras.respond { type := .requestTargetUpdate, instruction, target }).1.Holds
        (target :: addresses) :=
  ⟨rfl, CircularStack.Holds.push holds room target⟩

theorem Holds.query {ras : Ras} {address : BitVec 64} {addresses : List (BitVec 64)}
    (holds : ras.Holds (address :: addresses)) (instruction : InstructionPacket) :
    (ras.respond { type := .requestQuery, instruction }).2 =
        some { type := .responseTakeToAddress, instruction, target := address } ∧
      (ras.respond { type := .requestQuery, instruction }).1.Holds addresses := by
  obtain ⟨newest, older⟩ := CircularStack.Holds.pop holds
  refine ⟨?_, older⟩
  rw [← newest]
  rfl

/-- A stack counts what it is asked. -/
theorem afterRequests_eq (ras : Ras) (requests : List PredictorPacket) :
    (afterRequests respond ras requests).numQueries =
        ras.numQueries + requests.countP (·.type = .requestQuery) ∧
      (afterRequests respond ras requests).numUpdates =
        ras.numUpdates + requests.countP (·.type = .requestTargetUpdate) := by
  induction requests generalizing ras with
  | nil => exact ⟨rfl, rfl⟩
  | cons packet requests ih =>
    obtain ⟨queries, updates⟩ := ih (respond ras packet).1
    rw [afterRequests_cons, queries, updates, List.countP_cons, List.countP_cons, respond]
    cases packet.type <;> simp [requestQuery, requestUpdate] <;> omega

end Ras

end Sinuca3.Source
