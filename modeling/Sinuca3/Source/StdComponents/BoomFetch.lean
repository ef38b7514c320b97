import Mathlib.Logic.Function.Basic
import Sinuca3.Source.StdComponents.InterleavedBTB
import Sinuca3.Source.StdComponents.Ras

/-!
# Boom fetch

`fetch/boom_fetch.cpp`, a fetch stage with a branch target buffer and a return address
stack of its own, which it clocks itself. The array `fetchBuffer` is a function of the
index, as in the fetcher, and the loops that look for a flag stop at its end. The
assertions on responses have no effect when they hold. Counters do not reach the limits
of their types.
-/
namespace Sinuca3.Source

/-- A set of six bits. -/
structure BoomFetchBufferEntryFlags where
  sentToPredictor : Bool := false
  predictorCheck : Bool := false
  sentToRas : Bool := false
  sentToBTB : Bool := false
  btbCheck : Bool := false
  sentToMemory : Bool := false
  deriving DecidableEq

structure BoomFetchBufferEntry where
  instruction : InstructionPacket := {}
  flags : BoomFetchBufferEntryFlags := {}
  deriving DecidableEq

structure BoomFetch where
  btb : BranchTargetBuffer
  btbConnection : BTBConnection
  ras : Ras
  rasConnection : PredictorConnection
  fetchBuffer : Nat → BoomFetchBufferEntry := fun _ => {}
  fetchBufferUsage : Nat := 0
  fetchSize : Nat := 1
  fetchInterval : Nat := 1
  fetchClock : Nat := 0
  misspredictPenalty : Nat := 0
  misspredictions : Nat := 0
  currentPenalty : Nat := 0
  fetchedInstructions : Nat := 0
  flagsToCheck : BoomFetchBufferEntryFlags := { sentToMemory := true }

/-- The connections at the components it is configured with. -/
structure BoomFetchPorts where
  fetch : FetchConnection
  instructionMemory : MemoryConnection
  predictor : PredictorConnection

inductive BoomFetchEvent where
  /-- `SentToRas` sent a request about the instruction. -/
  | sentToRas (instruction : InstructionPacket)
  /-- `ClockCheckRas` received a response. -/
  | receivedFromRas (response : PredictorPacket)
  /-- `ClockFetch` received an instruction. -/
  | fetched (instruction : InstructionPacket)
  deriving DecidableEq

namespace BoomFetchBufferEntryFlags

def setSent (flags : BoomFetchBufferEntryFlags) : BoomFetchBufferEntryFlags :=
  { flags with sentToMemory := true, sentToPredictor := true }

def setSentToRas (flags : BoomFetchBufferEntryFlags) : BoomFetchBufferEntryFlags :=
  { flags with sentToRas := true }

def setSentToBTB (flags : BoomFetchBufferEntryFlags) : BoomFetchBufferEntryFlags :=
  { flags with sentToBTB := true }

def setPredictorCheck (flags : BoomFetchBufferEntryFlags) : BoomFetchBufferEntryFlags :=
  { flags with predictorCheck := true }

def setBTBCheck (flags : BoomFetchBufferEntryFlags) : BoomFetchBufferEntryFlags :=
  { flags with btbCheck := true }

/-- `(flags & toCheck) == toCheck`. -/
def contains (flags toCheck : BoomFetchBufferEntryFlags) : Bool :=
  (!toCheck.sentToPredictor || flags.sentToPredictor) &&
    (!toCheck.predictorCheck || flags.predictorCheck) &&
    (!toCheck.sentToRas || flags.sentToRas) &&
    (!toCheck.sentToBTB || flags.sentToBTB) &&
    (!toCheck.btbCheck || flags.btbCheck) &&
    (!toCheck.sentToMemory || flags.sentToMemory)

/-- The branch target buffer has yet to respond. -/
def awaitsBTB (flags : BoomFetchBufferEntryFlags) : Bool := flags.sentToBTB && !flags.btbCheck

end BoomFetchBufferEntryFlags

namespace BoomFetch

/-- A `long` is read into an `unsigned long`, which is not positive only if it is 0. -/
def positiveParameter (name : String) (given : Int) : Except (String × String) Nat :=
  if (BitVec.ofInt 64 given).toNat = 0 then .error (name, "not > 0")
  else .ok (BitVec.ofInt 64 given).toNat

/-- `Configure`, once the parameters are read and have the right types, those of `btb`
and `ras` included. -/
def configure (misspredictPenalty : Int) (fetchInterval fetchSize : Option Int)
    (interleavingFactor numberOfEntries : Int) (btbSendTo : Bool) (size : Int) (rasSendTo : Bool) :
    Except (String × String) (BoomFetch × BoomFetchPorts) := do
  let misspredictPenalty ← positiveParameter "misspredictPenalty" misspredictPenalty
  let fetchInterval ← positiveParameter "fetchInterval" (fetchInterval.getD 1)
  let fetchSize ← positiveParameter "fetchSize" (fetchSize.getD 1)
  let btb ← BranchTargetBuffer.configure interleavingFactor numberOfEntries btbSendTo
  let ras ← Ras.configure size rasSendTo
  return ({ btb, btbConnection := .connect fetchSize, ras, rasConnection := .connect fetchSize,
            misspredictPenalty, fetchInterval, fetchSize,
            flagsToCheck := { sentToMemory := true, predictorCheck := true } },
          { fetch := .connect fetchSize, instructionMemory := .connect fetchSize,
            predictor := .connect fetchSize })

theorem positiveParameter_pos {name : String} {given : Int} {n : Nat}
    (ok : positiveParameter name given = .ok n) : 0 < n := by
  unfold positiveParameter at ok
  split at ok
  · cases ok
  · cases ok
    omega

section Configure

variable {misspredictPenalty : Int} {fetchInterval fetchSize : Option Int}
  {interleavingFactor numberOfEntries : Int} {btbSendTo : Bool} {size : Int} {rasSendTo : Bool}
  {f : BoomFetch} {ports : BoomFetchPorts}

/-- What a successful `Configure` leaves, and that each parameter was accepted. -/
theorem configure_parameters
    (configured : configure misspredictPenalty fetchInterval fetchSize interleavingFactor
      numberOfEntries btbSendTo size rasSendTo = .ok (f, ports)) :
    ∃ penalty interval bytes btb ras,
      positiveParameter "misspredictPenalty" misspredictPenalty = .ok penalty ∧
      positiveParameter "fetchInterval" (fetchInterval.getD 1) = .ok interval ∧
      positiveParameter "fetchSize" (fetchSize.getD 1) = .ok bytes ∧
      BranchTargetBuffer.configure interleavingFactor numberOfEntries btbSendTo = .ok btb ∧
      Ras.configure size rasSendTo = .ok ras ∧
      f = { btb, btbConnection := .connect bytes, ras, rasConnection := .connect bytes,
            misspredictPenalty := penalty, fetchInterval := interval, fetchSize := bytes,
            flagsToCheck := { sentToMemory := true, predictorCheck := true } } ∧
      ports = { fetch := .connect bytes, instructionMemory := .connect bytes,
                predictor := .connect bytes } := by
  unfold configure at configured
  rcases penalty : positiveParameter "misspredictPenalty" misspredictPenalty with _ | n
  · rw [penalty] at configured
    cases configured
  rcases interval : positiveParameter "fetchInterval" (fetchInterval.getD 1) with _ | m
  · rw [penalty, interval] at configured
    cases configured
  rcases bytes : positiveParameter "fetchSize" (fetchSize.getD 1) with _ | k
  · rw [penalty, interval, bytes] at configured
    cases configured
  rcases btb : BranchTargetBuffer.configure interleavingFactor numberOfEntries btbSendTo with _ | b
  · rw [penalty, interval, bytes, btb] at configured
    cases configured
  rcases stack : Ras.configure size rasSendTo with _ | r
  · rw [penalty, interval, bytes, btb, stack] at configured
    cases configured
  rw [penalty, interval, bytes, btb, stack] at configured
  cases configured
  exact ⟨n, m, k, b, r, rfl, rfl, rfl, rfl, rfl, rfl, rfl⟩

/-- The same, with what is known of the parameters. -/
theorem configure_ok
    (configured : configure misspredictPenalty fetchInterval fetchSize interleavingFactor
      numberOfEntries btbSendTo size rasSendTo = .ok (f, ports)) :
    ∃ (penalty interval bytes : Nat) (btb : BranchTargetBuffer) (ras : Ras),
      0 < penalty ∧ 0 < interval ∧ 0 < bytes ∧
      BranchTargetBuffer.configure interleavingFactor numberOfEntries btbSendTo = .ok btb ∧
      Ras.configure size rasSendTo = .ok ras ∧
      f = { btb, btbConnection := .connect bytes, ras, rasConnection := .connect bytes,
            misspredictPenalty := penalty, fetchInterval := interval, fetchSize := bytes,
            flagsToCheck := { sentToMemory := true, predictorCheck := true } } ∧
      ports = { fetch := .connect bytes, instructionMemory := .connect bytes,
                predictor := .connect bytes } := by
  obtain ⟨n, m, k, b, r, penalty, interval, bytes, btb, stack, fields, connections⟩ :=
    configure_parameters configured
  exact ⟨n, m, k, b, r, positiveParameter_pos penalty, positiveParameter_pos interval,
    positiveParameter_pos bytes, btb, stack, fields, connections⟩

/-- The same, as far as the buffer and the stack go. -/
theorem configure_eq
    (configured : configure misspredictPenalty fetchInterval fetchSize interleavingFactor
      numberOfEntries btbSendTo size rasSendTo = .ok (f, ports)) :
    Ras.configure size rasSendTo = .ok f.ras ∧ f.rasConnection = .connect f.fetchSize ∧
      f.fetchBufferUsage = 0 ∧
      f.flagsToCheck = { sentToMemory := true, predictorCheck := true } := by
  obtain ⟨_, _, _, _, ras, _, _, _, _, stack, rfl, _⟩ := configure_ok configured
  exact ⟨stack, rfl, rfl, rfl⟩

end Configure

def setEntry (f : BoomFetch) (i : Nat) (entry : BoomFetchBufferEntry) : BoomFetch :=
  { f with fetchBuffer := Function.update f.fetchBuffer i entry }

def setFlags (f : BoomFetch) (i : Nat)
    (set : BoomFetchBufferEntryFlags → BoomFetchBufferEntryFlags) : BoomFetch :=
  f.setEntry i { f.fetchBuffer i with flags := set (f.fetchBuffer i).flags }

/-- The loops `while (..) ++i` on the flags, with `n` entries left. -/
def skipWhile (f : BoomFetch) (passes : BoomFetchBufferEntryFlags → Bool) : Nat → Nat → Nat
  | 0, i => i
  | n + 1, i => if passes (f.fetchBuffer i).flags then f.skipWhile passes n (i + 1) else i

/-- The packet for the stack: for a call it has the address of what follows in the trace. -/
def rasPacket (instruction : InstructionPacket) : Option PredictorPacket :=
  match instruction.staticInfo.branchType with
  | .call => some { type := .requestTargetUpdate, instruction,
                    target := instruction.nextInstruction }
  | .ret => some { type := .requestQuery, instruction }
  | _ => none

def sentToRas (f : BoomFetch) (i : Nat) : Bool × BoomFetch × List BoomFetchEvent :=
  let instruction := (f.fetchBuffer i).instruction
  match rasPacket instruction with
  | none => (false, f, [])
  | some packet =>
    (true, { f with rasConnection := (f.rasConnection.sendRequest packet).getD f.rasConnection },
      [.sentToRas instruction])

def sentToBTB (f : BoomFetch) (i : Nat) : Bool × BoomFetch :=
  let staticInfo := (f.fetchBuffer i).instruction.staticInfo
  if staticInfo.branchType ≠ .none then
    let connection := f.btbConnection.sendRequest (.requestQuery staticInfo)
    (true, { f with btbConnection := connection.getD f.btbConnection }.setFlags i .setSentToBTB)
  else (false, f)

/-- The body of the loop of `ClockSendBuffered` once everything is available. -/
def sendEntry (f : BoomFetch) (ports : BoomFetchPorts) (i : Nat) :
    BoomFetch × BoomFetchPorts × List BoomFetchEvent :=
  let instruction := (f.fetchBuffer i).instruction
  let query : PredictorPacket := { type := .requestQuery, instruction }
  let ports := { ports with
    instructionMemory := (ports.instructionMemory.sendRequest instruction).getD
      ports.instructionMemory
    predictor := (ports.predictor.sendRequest query).getD ports.predictor }
  let f := f.setFlags i .setSent
  let ras := f.sentToRas i
  let f := if ras.1 then ras.2.1.setFlags i .setSentToRas else ras.2.1
  let btb := f.sentToBTB i
  let f := if btb.1 then btb.2.setFlags i .setSentToBTB else btb.2
  (f, ports, ras.2.2)

def available (f : BoomFetch) (ports : BoomFetchPorts) : Bool :=
  ports.instructionMemory.isConnectionAvailable && ports.predictor.isConnectionAvailable &&
    f.rasConnection.isConnectionAvailable && f.btbConnection.isConnectionAvailable

/-- The loop of `ClockSendBuffered` from the entry at `i` on, with `n` entries left. -/
def sendFrom : Nat → Nat → BoomFetch → BoomFetchPorts →
    BoomFetch × BoomFetchPorts × List BoomFetchEvent
  | 0, _, f, ports => (f, ports, [])
  | n + 1, i, f, ports =>
    if f.available ports then
      let sent := f.sendEntry ports i
      let rest := sendFrom n (i + 1) sent.1 sent.2.1
      (rest.1, rest.2.1, sent.2.2 ++ rest.2.2)
    else (f, ports, [])

/-- Entries past those in use are not sent, whatever their flags are. -/
def clockSendBuffered (f : BoomFetch) (ports : BoomFetchPorts) :
    BoomFetch × BoomFetchPorts × List BoomFetchEvent :=
  let i := f.skipWhile (·.sentToMemory) f.fetchBufferUsage 0
  sendFrom (f.fetchBufferUsage - i) i f ports

/-- The target a response stands for. -/
def predictedTarget (instruction : InstructionPacket) (response : PredictorPacket) : BitVec 64 :=
  if response.type = .responseTakeToAddress then response.target
  else instruction.staticInfo.instAddress + instruction.staticInfo.instSize

/-- The loop of `ClockCheckPredictor` over the responses. -/
def checkPredictor : List PredictorPacket → Nat → BoomFetch → Bool × BoomFetch
  | [], _, f => (false, f)
  | response :: responses, i, f =>
    let instruction := (f.fetchBuffer i).instruction
    let rest := checkPredictor responses (i + 1) (f.setFlags i .setPredictorCheck)
    (predictedTarget instruction response ≠ instruction.nextInstruction || rest.1, rest.2)

/-- Non-zero return codes are `true`. -/
def clockCheckPredictor (f : BoomFetch) (ports : BoomFetchPorts) :
    Bool × BoomFetch × BoomFetchPorts :=
  let i := f.skipWhile (·.predictorCheck) f.fetchSize 0
  let drained := ports.predictor.drainResponses
  let ports := { ports with predictor := drained.2 }
  let checked := checkPredictor drained.1 i f
  (drained.1 = [] || checked.1, checked.2, ports)

/-- What `ClockCheckRas` compares: the address on the stack is not where the return went. -/
def mismatch (response : PredictorPacket) : Bool :=
  response.instruction.nextInstruction ≠ response.target

/-- The clock of the stack, and its responses. -/
def clockedRas (f : BoomFetch) : List PredictorPacket × BoomFetch :=
  let clocked := Ras.clock (f.ras, fun _ : Fin 1 => f.rasConnection)
  let drained := (clocked.1.2 0).swapBuffers.drainResponses
  (drained.1, { f with ras := clocked.1.1, rasConnection := drained.2 })

def clockCheckRas (f : BoomFetch) : Bool × BoomFetch × List BoomFetchEvent :=
  let clocked := f.clockedRas
  (clocked.1 = [] || clocked.1.any mismatch, clocked.2, clocked.1.map .receivedFromRas)

/-- The target of a response; the buffer sends nothing else. -/
def btbTarget : BTBPacket → BitVec 64
  | .responseBTBHit response => response.target
  | .responseBTBMiss response => response.target
  | _ => 0

/-- The request that follows a response. The address `next` is an `unsigned int`. -/
def btbRequest (instruction : InstructionPacket) (next : BitVec 32) : BTBPacket → BTBPacket
  | .responseBTBHit _ =>
    .requestUpdate instruction.staticInfo (next.setWidth 64 ≠
      instruction.staticInfo.instAddress + instruction.staticInfo.instSize)
  | _ => .requestAddEntry instruction.staticInfo instruction.nextInstruction

/-- The loop of `ClockCheckBTB` over the responses. -/
def checkBTB : List BTBPacket → BoomFetch → Bool × BoomFetch
  | [], f => (false, f)
  | response :: responses, f =>
    let i := f.skipWhile (!·.awaitsBTB) f.fetchSize 0
    let f := f.setFlags i .setBTBCheck
    let instruction := (f.fetchBuffer i).instruction
    let next := instruction.nextInstruction.setWidth 32
    let connection :=
      if f.btbConnection.isConnectionAvailable then
        (f.btbConnection.sendRequest (btbRequest instruction next response)).getD f.btbConnection
      else f.btbConnection
    let rest := checkBTB responses { f with btbConnection := connection }
    (next.setWidth 64 ≠ btbTarget response || rest.1, rest.2)

/-- The clock of the buffer, and its responses. -/
def clockedBTB (f : BoomFetch) : List BTBPacket × BoomFetch :=
  let clocked := BranchTargetBuffer.clock (f.btb, fun _ : Fin 1 => f.btbConnection)
  let drained := (clocked.1.2 0).swapBuffers.drainResponses
  (drained.1, { f with btb := clocked.1.1, btbConnection := drained.2 })

def clockCheckBTB (f : BoomFetch) : Bool × BoomFetch :=
  let clocked := f.clockedBTB
  let checked := checkBTB clocked.1 clocked.2
  (clocked.1 = [] || checked.1, checked.2)

/-- The `memmove` leaves the cells past the new usage as they are. -/
def clockUnbuffer (f : BoomFetch) : BoomFetch :=
  let i := f.skipWhile (fun flags => flags.contains f.flagsToCheck && !flags.awaitsBTB)
    f.fetchBufferUsage 0
  let usage := f.fetchBufferUsage - i
  { f with
    fetchBufferUsage := usage
    fetchBuffer := fun k => if k < usage then f.fetchBuffer (i + k) else f.fetchBuffer k }

def fetchBufferByteUsage (f : BoomFetch) : BitVec 64 :=
  ((List.range f.fetchBufferUsage).map fun i =>
    (f.fetchBuffer i).instruction.staticInfo.instSize).foldl (· + ·) 0

/-- A difference of `unsigned long`, taken as a `long`. -/
def request (f : BoomFetch) : Int := (BitVec.ofNat 64 f.fetchSize - f.fetchBufferByteUsage).toInt

/-- A request that is refused is not made again. -/
def clockRequestFetch (f : BoomFetch) (c : FetchConnection) : FetchConnection :=
  (c.sendRequest f.request).getD c

/-- The loop of `ClockFetch` over the responses; the last read, for which there is
none, zero-fills the instruction of the slot it is given. -/
def receive : List InstructionPacket → BoomFetch → BoomFetch × List BoomFetchEvent
  | [], f =>
    (f.setEntry f.fetchBufferUsage { f.fetchBuffer f.fetchBufferUsage with instruction := {} }, [])
  | response :: responses, f =>
    let rest := receive responses
      { f.setEntry f.fetchBufferUsage { instruction := response, flags := {} } with
        fetchBufferUsage := f.fetchBufferUsage + 1
        fetchedInstructions := f.fetchedInstructions + 1 }
    (rest.1, .fetched response :: rest.2)

def clockFetch (f : BoomFetch) (ports : BoomFetchPorts) :
    BoomFetch × BoomFetchPorts × List BoomFetchEvent :=
  let drained := ports.fetch.drainResponses
  let received := receive drained.1 f
  (received.1, { ports with fetch := drained.2 }, received.2)

/-- The first five calls of `Clock`, with whether all three results are non-zero. -/
def clockBuffered (f : BoomFetch) (ports : BoomFetchPorts) :
    Bool × BoomFetch × BoomFetchPorts × List BoomFetchEvent :=
  let sent := f.clockSendBuffered ports
  let predicted := sent.1.clockCheckPredictor sent.2.1
  let ras := predicted.2.1.clockCheckRas
  let btb := ras.2.1.clockCheckBTB
  (predicted.1 && ras.1 && btb.1, btb.2.clockUnbuffer, predicted.2.2, sent.2.2 ++ ras.2.2)

/-- What follows them when `Clock` does not return early. -/
def clockFetchAndRequest (f : BoomFetch) (ports : BoomFetchPorts) :
    BoomFetch × BoomFetchPorts × List BoomFetchEvent :=
  let fetched := f.clockFetch ports
  let f := fetched.1
  let ports := fetched.2.1
  if f.fetchClock % f.fetchInterval = 0 then
    ({ f with fetchClock := 1 }, { ports with fetch := f.clockRequestFetch ports.fetch },
      fetched.2.2)
  else ({ f with fetchClock := f.fetchClock + 1 }, ports, fetched.2.2)

def clock (f : BoomFetch) (ports : BoomFetchPorts) :
    BoomFetch × BoomFetchPorts × List BoomFetchEvent :=
  let buffered := f.clockBuffered ports
  let f := buffered.2.1
  let ports := buffered.2.2.1
  let fetch := fun f : BoomFetch =>
    let fetched := f.clockFetchAndRequest ports
    (fetched.1, fetched.2.1, buffered.2.2.2 ++ fetched.2.2)
  if 0 < f.currentPenalty then
    let f := { f with currentPenalty := f.currentPenalty - 1 }
    if 2 < f.currentPenalty then (f, ports, buffered.2.2.2) else fetch f
  else if buffered.1 then
    ({ f with
        misspredictions := f.misspredictions + 1
        currentPenalty := f.misspredictPenalty
        fetchClock := 0 }, ports, buffered.2.2.2)
  else fetch f

end BoomFetch

end Sinuca3.Source
