import Sinuca3.Source.Engine.DefaultPackets
import Sinuca3.Source.Engine.Serving

/-!
# Predictors and memories

What a fetcher may expect of a predictor; `predictors/hardwired_predictor.cpp`, which
keeps to it, and `memory/simple_instruction_memory.cpp`.
-/
namespace Sinuca3.Source

/-- A predictor that answers each query exactly once and in order, after any delay:
the queries not answered yet and those it reads are the ones it answers, and then
those not answered yet. -/
structure InOrderPredictor (π : Type) extends Server π PredictorPacket PredictorPacket where
  pending : π → List InstructionPacket
  inOrder : ∀ s c, c.sentResponses = [] → (∀ q ∈ c.readableRequests, q.type = .requestQuery) →
    pending s ++ c.readableRequests.map PredictorPacket.instruction =
      (clock s c).2.sentResponses.map PredictorPacket.instruction ++ pending (clock s c).1

structure SimpleInstructionMemory where
  /-- The connection to `sendTo`, if one is configured. -/
  sendTo : Option MemoryConnection := none
  numberOfRequests : Nat := 0

/-- A request is passed on or returned. -/
def SimpleInstructionMemory.respond (m : SimpleInstructionMemory) (packet : InstructionPacket) :
    SimpleInstructionMemory × Option InstructionPacket :=
  let m := { m with numberOfRequests := m.numberOfRequests + 1 }
  match m.sendTo with
  | some c => ({ m with sendTo := some ((c.sendRequest packet).getD c) }, none)
  | none => (m, some packet)

def simpleInstructionMemory : Server SimpleInstructionMemory InstructionPacket InstructionPacket :=
  .answering SimpleInstructionMemory.respond

structure HardwiredPredictor where
  /-- The connection to `sendTo`, if one is configured. -/
  sendTo : Option PredictorConnection := none
  numberOfSyscalls : Nat := 0
  numberOfCalls : Nat := 0
  numberOfRets : Nat := 0
  numberOfSysrets : Nat := 0
  numberOfUnconds : Nat := 0
  numberOfConds : Nat := 0
  numberOfNoBranchs : Nat := 0
  syscall : Bool := true
  call : Bool := true
  ret : Bool := true
  sysret : Bool := true
  uncond : Bool := true
  cond : Bool := true
  noBranch : Bool := true

namespace HardwiredPredictor

/-- Whether to predict, with the count of what was asked. The test for `BranchNone`
is the wrong way round in the source: the switch is reached only for instructions
that are no branches. -/
def classify (p : HardwiredPredictor) (branchType : Branch) : Bool × HardwiredPredictor :=
  if branchType ≠ .none then
    (p.noBranch, { p with numberOfNoBranchs := p.numberOfNoBranchs + 1 })
  else
    match branchType with
    | .syscall => (p.syscall, { p with numberOfSyscalls := p.numberOfSyscalls + 1 })
    | .call => (p.call, { p with numberOfCalls := p.numberOfCalls + 1 })
    | .ret => (p.ret, { p with numberOfRets := p.numberOfRets + 1 })
    | .uncond => (p.uncond, { p with numberOfUnconds := p.numberOfUnconds + 1 })
    | .cond => (p.cond, { p with numberOfConds := p.numberOfConds + 1 })
    | .sysret => (p.sysret, { p with numberOfSysrets := p.numberOfSysrets + 1 })
    | .none => (true, p)

def answer (predict : Bool) (instruction : InstructionPacket) : PredictorPacket :=
  { type := .responseTakeToAddress
    instruction
    target := if predict then instruction.nextInstruction else ~~~instruction.nextInstruction }

def respond (p : HardwiredPredictor) (request : PredictorPacket) :
    HardwiredPredictor × Option PredictorPacket :=
  if request.type = .requestTargetUpdate ∨ request.type = .requestDirectionUpdate then (p, none)
  else
    let classified := p.classify request.instruction.staticInfo.branchType
    let response := answer classified.1 request.instruction
    let p := classified.2
    ({ p with sendTo := p.sendTo.map fun c => (c.sendRequest response).getD c }, some response)

def clock {n : Nat} : ComponentClock HardwiredPredictor n PredictorPacket PredictorPacket :=
  clockAll respond

end HardwiredPredictor

def hardwiredPredictor : InOrderPredictor HardwiredPredictor where
  toServer := .answering HardwiredPredictor.respond
  pending := fun _ => []
  inOrder := by
    intro p c unsent queries
    rw [Server.answering_answers HardwiredPredictor.respond PredictorPacket.instruction
      PredictorPacket.instruction p c _ unsent]
    · simp
    · intro p request member
      have isQuery : ¬ (request.type = .requestTargetUpdate ∨
          request.type = .requestDirectionUpdate) := by
        rw [queries request member]
        decide
      unfold HardwiredPredictor.respond
      rw [if_neg isQuery]
      exact ⟨_, rfl, rfl⟩

end Sinuca3.Source
