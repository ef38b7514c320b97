import Mathlib.Data.List.Basic
import Sinuca3.Source.Engine.DefaultPackets

/-!
# Fetcher

`std_components/fetch/fetcher.cpp`. The array `fetchBuffer` is a function of the
index, so that it has cells past the end, and every slot that `ClockFetch` hands
to `ReceiveResponse` is an event. The entries in use are the list `contents`, on
which each part of `Clock` has its lemma. Counters do not reach the limits of
their types.
-/
namespace Sinuca3.Source

/-- A set of three bits. -/
structure FetchBufferEntryFlags where
  predicted : Bool := false
  sentToPredictor : Bool := false
  sentToMemory : Bool := false
  deriving DecidableEq

namespace FetchBufferEntryFlags

def setPredicted (flags : FetchBufferEntryFlags) : FetchBufferEntryFlags :=
  { flags with predicted := true }

def setSentToPredictor (flags : FetchBufferEntryFlags) : FetchBufferEntryFlags :=
  { flags with sentToPredictor := true }

def setSentToMemory (flags : FetchBufferEntryFlags) : FetchBufferEntryFlags :=
  { flags with sentToMemory := true }

/-- `(flags & toCheck) == toCheck`. -/
def contains (flags toCheck : FetchBufferEntryFlags) : Bool :=
  (!toCheck.predicted || flags.predicted) &&
    (!toCheck.sentToPredictor || flags.sentToPredictor) &&
    (!toCheck.sentToMemory || flags.sentToMemory)

end FetchBufferEntryFlags

structure FetchBufferEntry where
  instruction : InstructionPacket := {}
  flags : FetchBufferEntryFlags := {}
  deriving DecidableEq

def FetchBufferEntry.setFlags (set : FetchBufferEntryFlags → FetchBufferEntryFlags)
    (entry : FetchBufferEntry) : FetchBufferEntry :=
  { entry with flags := set entry.flags }

structure Fetcher where
  fetchBuffer : Nat → FetchBufferEntry := fun _ => {}
  fetchBufferUsage : Nat := 0
  fetchSize : Nat := 1
  fetchInterval : Nat := 1
  fetchClock : Nat := 0
  misspredictPenalty : Nat := 0
  misspredictions : Nat := 0
  currentPenalty : Nat := 0
  fetchedInstructions : Nat := 0
  flagsToCheck : FetchBufferEntryFlags := { sentToMemory := true }

/-- The connections of a fetcher, at the components it is configured with. -/
structure FetcherPorts where
  fetch : FetchConnection
  instructionMemory : MemoryConnection
  /-- None when no predictor is configured. -/
  predictor : Option PredictorConnection

inductive FetcherEvent where
  | sentToMemory (instruction : InstructionPacket)
  | sentToPredictor (instruction : InstructionPacket)
  /-- A response of the predictor taken for the entry at `i`. -/
  | attributed (i : Nat) (instruction : InstructionPacket) (response : PredictorPacket)
  | unbuffered (entry : FetchBufferEntry)
  /-- A slot passed to `ReceiveResponse`, and what this put there. -/
  | received (slot : Nat) (response : Option InstructionPacket)
  deriving DecidableEq

namespace Fetcher

/-- A parameter that is not given keeps its default, and one that is given must be
positive. -/
def positiveParameter (name : String) (given : Option Int) (byDefault : Int) :
    Except (String × String) Nat :=
  if given.getD byDefault ≤ 0 then .error (name, "is not > 0.")
  else .ok (given.getD byDefault).toNat

/-- `Configure`, once the parameters are read and have the right types. -/
def configure (fetchSize fetchInterval misspredictPenalty : Option Int) (predictor : Bool) :
    Except (String × String) (Fetcher × FetcherPorts) := do
  let fetchSize ← positiveParameter "fetchSize" fetchSize 1
  let fetchInterval ← positiveParameter "fetchInterval" fetchInterval 1
  let misspredictPenalty ← positiveParameter "misspredictPenalty" misspredictPenalty 0
  return ({ fetchSize, fetchInterval, misspredictPenalty,
            flagsToCheck := { sentToMemory := true, predicted := predictor } },
          { fetch := .connect fetchSize,
            instructionMemory := .connect fetchSize,
            predictor := if predictor then some (.connect fetchSize) else none })

theorem positiveParameter_pos {name : String} {given : Option Int} {byDefault : Int} {n : Nat}
    (ok : positiveParameter name given byDefault = .ok n) : 0 < n := by
  unfold positiveParameter at ok
  split at ok
  · cases ok
  · cases ok
    omega

section Configure

variable {fetchSize fetchInterval misspredictPenalty : Option Int} {predictor : Bool}
  {f : Fetcher} {ports : FetcherPorts}

/-- What a successful `Configure` leaves, and that each parameter was accepted. -/
theorem configure_parameters
    (configured : configure fetchSize fetchInterval misspredictPenalty predictor =
      .ok (f, ports)) :
    ∃ size interval penalty, positiveParameter "fetchSize" fetchSize 1 = .ok size ∧
      positiveParameter "fetchInterval" fetchInterval 1 = .ok interval ∧
      positiveParameter "misspredictPenalty" misspredictPenalty 0 = .ok penalty ∧
      f = { fetchSize := size, fetchInterval := interval, misspredictPenalty := penalty,
            flagsToCheck := { sentToMemory := true, predicted := predictor } } ∧
      ports = { fetch := .connect size, instructionMemory := .connect size,
                predictor := if predictor then some (.connect size) else none } := by
  unfold configure at configured
  rcases size : positiveParameter "fetchSize" fetchSize 1 with _ | n
  · rw [size] at configured
    cases configured
  rcases interval : positiveParameter "fetchInterval" fetchInterval 1 with _ | m
  · rw [size, interval] at configured
    cases configured
  rcases penalty : positiveParameter "misspredictPenalty" misspredictPenalty 0 with _ | k
  · rw [size, interval, penalty] at configured
    cases configured
  rw [size, interval, penalty] at configured
  cases configured
  exact ⟨n, m, k, rfl, rfl, rfl, rfl, rfl⟩

/-- The same, with what is known of the parameters. -/
theorem configure_eq
    (configured : configure fetchSize fetchInterval misspredictPenalty predictor =
      .ok (f, ports)) :
    ∃ size interval penalty, 0 < size ∧ 0 < interval ∧ 0 < penalty ∧
      f = { fetchSize := size, fetchInterval := interval, misspredictPenalty := penalty,
            flagsToCheck := { sentToMemory := true, predicted := predictor } } ∧
      ports = { fetch := .connect size, instructionMemory := .connect size,
                predictor := if predictor then some (.connect size) else none } := by
  obtain ⟨n, m, k, size, interval, penalty, fields, connections⟩ :=
    configure_parameters configured
  exact ⟨n, m, k, positiveParameter_pos size, positiveParameter_pos interval,
    positiveParameter_pos penalty, fields, connections⟩

end Configure

/-- The entries in use. -/
def contents (f : Fetcher) : List FetchBufferEntry := (List.range f.fetchBufferUsage).map f.fetchBuffer

def setEntry (f : Fetcher) (i : Nat) (entry : FetchBufferEntry) : Fetcher :=
  { f with fetchBuffer := Function.update f.fetchBuffer i entry }

def setFlags (f : Fetcher) (i : Nat) (set : FetchBufferEntryFlags → FetchBufferEntryFlags) :
    Fetcher :=
  f.setEntry i ((f.fetchBuffer i).setFlags set)

/-- The loops `while (i < fetchBufferUsage && ..) ++i`, with `n` entries left. -/
def skipWhile (f : Fetcher) (passes : FetchBufferEntryFlags → Bool) : Nat → Nat → Nat
  | 0, i => i
  | n + 1, i => if passes (f.fetchBuffer i).flags then f.skipWhile passes n (i + 1) else i

section Send

variable {Req Resp : Type} (message : InstructionPacket → Req)
  (set : FetchBufferEntryFlags → FetchBufferEntryFlags)
  (event : InstructionPacket → FetcherEvent)

/-- The loops that send the entries from `i` on, with `n` entries left. -/
def sendFrom : Nat → Nat → Fetcher → Connection Req Resp →
    Fetcher × Connection Req Resp × List FetcherEvent
  | 0, _, f, c => (f, c, [])
  | n + 1, i, f, c =>
    match c.sendRequest (message (f.fetchBuffer i).instruction) with
    | none => (f, c, [])
    | some c =>
      let rest := sendFrom n (i + 1) (f.setFlags i set) c
      (rest.1, rest.2.1, event (f.fetchBuffer i).instruction :: rest.2.2)

/-- Skip the entries already sent, then send. -/
def sendUnsent (isSent : FetchBufferEntryFlags → Bool) (f : Fetcher) (c : Connection Req Resp) :
    Fetcher × Connection Req Resp × List FetcherEvent :=
  let i := f.skipWhile isSent f.fetchBufferUsage 0
  sendFrom message set event (f.fetchBufferUsage - i) i f c

end Send

def query (instruction : InstructionPacket) : PredictorPacket :=
  { type := .requestQuery, instruction }

def sendToMemory (f : Fetcher) (c : MemoryConnection) :
    Fetcher × MemoryConnection × List FetcherEvent :=
  sendUnsent id .setSentToMemory .sentToMemory (·.sentToMemory) f c

def sendToPredictor (f : Fetcher) (c : PredictorConnection) :
    Fetcher × PredictorConnection × List FetcherEvent :=
  sendUnsent query .setSentToPredictor .sentToPredictor (·.sentToPredictor) f c

def clockSendBuffered (f : Fetcher) (ports : FetcherPorts) :
    Fetcher × FetcherPorts × List FetcherEvent :=
  let memory := f.sendToMemory ports.instructionMemory
  match ports.predictor with
  | none => (memory.1, { ports with instructionMemory := memory.2.1 }, memory.2.2)
  | some c =>
    let predictor := memory.1.sendToPredictor c
    (predictor.1,
      { ports with instructionMemory := memory.2.1, predictor := some predictor.2.1 },
      memory.2.2 ++ predictor.2.2)

/-- Where the prediction of an instruction leads: without an address from the
predictor, to the next logical one. -/
def predictedTarget (instruction : InstructionPacket) (response : PredictorPacket) : BitVec 64 :=
  if response.type = .responseTakeToAddress then response.target
  else instruction.staticInfo.instAddress + instruction.staticInfo.instSize

/-- The loop of `ClockCheckPredictor` over the responses, the first of them for the
entry at `i`. The assertion has no effect when it holds. -/
def checkResponses : List PredictorPacket → Nat → Fetcher → Bool × Fetcher × List FetcherEvent
  | [], _, f => (false, f, [])
  | response :: responses, i, f =>
    let instruction := (f.fetchBuffer i).instruction
    let rest := checkResponses responses (i + 1) (f.setFlags i .setPredicted)
    (predictedTarget instruction response ≠ instruction.nextInstruction || rest.1, rest.2.1,
      .attributed i instruction response :: rest.2.2)

/-- Non-zero return codes are `true`. -/
def clockCheckPredictor (f : Fetcher) (ports : FetcherPorts) :
    Bool × Fetcher × FetcherPorts × List FetcherEvent :=
  match ports.predictor with
  | none => (false, f, ports, [])
  | some c =>
    let drained := c.drainResponses
    let ports := { ports with predictor := some drained.2 }
    match drained.1 with
    | [] => (true, f, ports, [])
    | responses =>
      let checked := checkResponses responses 0 f
      (checked.1, checked.2.1, ports, checked.2.2)

/-- The `memmove` leaves the cells past the new usage as they are. -/
def clockUnbuffer (f : Fetcher) : Fetcher × List FetcherEvent :=
  let i := f.skipWhile (·.contains f.flagsToCheck) f.fetchBufferUsage 0
  let usage := f.fetchBufferUsage - i
  ({ f with
      fetchBufferUsage := usage
      fetchBuffer := fun k => if k < usage then f.fetchBuffer (i + k) else f.fetchBuffer k },
    (List.range i).map fun k => .unbuffered (f.fetchBuffer k))

def fetchBufferByteUsage (f : Fetcher) : BitVec 64 :=
  (f.contents.map fun entry => entry.instruction.staticInfo.instSize).foldl (· + ·) 0

/-- A difference of `unsigned long`, taken as a `long`. -/
def request (f : Fetcher) : Int := (BitVec.ofNat 64 f.fetchSize - f.fetchBufferByteUsage).toInt

/-- A request that is refused is not made again. -/
def clockRequestFetch (f : Fetcher) (c : FetchConnection) : FetchConnection :=
  (c.sendRequest f.request).getD c

/-- The loop of `ClockFetch` over the responses; the last read, for which there is
none, zero-fills the instruction of the slot it is given. -/
def receive : List InstructionPacket → Fetcher → Fetcher × List FetcherEvent
  | [], f =>
    (f.setEntry f.fetchBufferUsage { f.fetchBuffer f.fetchBufferUsage with instruction := {} },
      [.received f.fetchBufferUsage none])
  | response :: responses, f =>
    let rest := receive responses
      { f.setEntry f.fetchBufferUsage { instruction := response, flags := {} } with
        fetchBufferUsage := f.fetchBufferUsage + 1
        fetchedInstructions := f.fetchedInstructions + 1 }
    (rest.1, .received f.fetchBufferUsage (some response) :: rest.2)

def clockFetch (f : Fetcher) (ports : FetcherPorts) : Fetcher × FetcherPorts × List FetcherEvent :=
  let drained := ports.fetch.drainResponses
  let received := receive drained.1 f
  (received.1, { ports with fetch := drained.2 }, received.2)

/-- The first three calls of `Clock`, with the result of the prediction. -/
def clockBuffered (f : Fetcher) (ports : FetcherPorts) :
    Bool × Fetcher × FetcherPorts × List FetcherEvent :=
  let sent := f.clockSendBuffered ports
  let checked := sent.1.clockCheckPredictor sent.2.1
  let unbuffered := checked.2.1.clockUnbuffer
  (checked.1, unbuffered.1, checked.2.2.1, sent.2.2 ++ checked.2.2.2 ++ unbuffered.2)

/-- What follows them when `Clock` does not return early. -/
def clockFetchAndRequest (f : Fetcher) (ports : FetcherPorts) :
    Fetcher × FetcherPorts × List FetcherEvent :=
  let fetched := f.clockFetch ports
  let f := fetched.1
  let ports := fetched.2.1
  if f.fetchClock % f.fetchInterval = 0 then
    ({ f with fetchClock := 1 }, { ports with fetch := f.clockRequestFetch ports.fetch },
      fetched.2.2)
  else ({ f with fetchClock := f.fetchClock + 1 }, ports, fetched.2.2)

def clock (f : Fetcher) (ports : FetcherPorts) : Fetcher × FetcherPorts × List FetcherEvent :=
  match f.clockBuffered ports with
  | (predictionResult, f, ports, events) =>
    if 0 < f.currentPenalty then
      let f := { f with currentPenalty := f.currentPenalty - 1 }
      if 2 < f.currentPenalty then (f, ports, events)
      else
        let fetched := f.clockFetchAndRequest ports
        (fetched.1, fetched.2.1, events ++ fetched.2.2)
    else if predictionResult then
      ({ f with
          misspredictions := f.misspredictions + 1
          currentPenalty := f.misspredictPenalty
          fetchClock := 0 }, ports, events)
    else
      let fetched := f.clockFetchAndRequest ports
      (fetched.1, fetched.2.1, events ++ fetched.2.2)

/-- One of the responses, the first of them for the entry at `i`, is wrong about the
instruction that followed. -/
def wrongAbout (f : Fetcher) : List PredictorPacket → Nat → Bool
  | [], _ => false
  | response :: responses, i =>
    predictedTarget (f.fetchBuffer i).instruction response ≠
        (f.fetchBuffer i).instruction.nextInstruction ||
      f.wrongAbout responses (i + 1)

/-- There is a predictor, and it has no response or a wrong one. -/
def unconfirmed (f : Fetcher) : Option PredictorConnection → Bool
  | none => false
  | some c => c.readableResponses = [] || f.wrongAbout c.readableResponses 0

/-- `Clock` returns before it fetches: in a penalty but for its last three cycles,
or when the prediction was not confirmed outside of one. -/
def returnsEarly (f : Fetcher) (ports : FetcherPorts) : Bool :=
  3 < f.currentPenalty || (f.currentPenalty = 0 && f.unconfirmed ports.predictor)

theorem returnsEarly_iff {f : Fetcher} {ports : FetcherPorts} : f.returnsEarly ports = true ↔
    3 < f.currentPenalty ∨ f.currentPenalty = 0 ∧ f.unconfirmed ports.predictor = true := by
  unfold returnsEarly
  rw [Bool.or_eq_true, decide_eq_true_eq, Bool.and_eq_true, decide_eq_true_eq]

theorem reaches_iff {f : Fetcher} {ports : FetcherPorts} : f.returnsEarly ports = false ↔
    f.currentPenalty ≤ 3 ∧ (f.currentPenalty = 0 → f.unconfirmed ports.predictor = false) := by
  rw [← Bool.not_eq_true, returnsEarly_iff, not_or, not_and, Bool.not_eq_true, Nat.not_lt]

end Fetcher

end Sinuca3.Source
