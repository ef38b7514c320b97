import Sinuca3.Lib.Machine
import Sinuca3.Source.StdComponents.BoomFetchCycle

/-!
# Return addresses

At a call boom fetch has its return address stack push where the call goes, not where
its return will: the address that is compared at the return is right exactly if the call
goes to the instruction after it.
-/
namespace Sinuca3.Guarantees
open Sinuca3.Source Lib BoomFetch

/-- The address of the instruction after a call. -/
def returnAddress (call : InstructionPacket) : BitVec 64 :=
  call.staticInfo.instAddress + call.staticInfo.instSize

/-- The calls that are open after an instruction, newest first. -/
def follow (calls : List InstructionPacket) (p : InstructionPacket) : List InstructionPacket :=
  match p.staticInfo.branchType with
  | .call => p :: calls
  | .ret => calls.tail
  | _ => calls

/-- No more than `size` calls are open at a time, and every return goes to the instruction
after its call. -/
def WellNested (size : Nat) : List InstructionPacket → List InstructionPacket → Prop
  | _, [] => True
  | calls, p :: stream =>
    (p.staticInfo.branchType = .call → calls.length < size) ∧
      (p.staticInfo.branchType = .ret →
        ∃ call, calls.head? = some call ∧ p.nextInstruction = returnAddress call) ∧
      WellNested size (follow calls p) stream

/-- The returns of a stream, each with its call. -/
def matchedCalls : List InstructionPacket → List InstructionPacket →
    List (InstructionPacket × InstructionPacket)
  | _, [] => []
  | calls, p :: stream =>
    (if p.staticInfo.branchType = .ret then calls.head?.toList.map fun call => (call, p) else []) ++
      matchedCalls (follow calls p) stream

def returns (stream : List InstructionPacket) : List InstructionPacket :=
  stream.filter (·.staticInfo.branchType = .ret)

/-- The connections in a cycle in which instructions and predictions arrive. -/
def arriving (instructions : List InstructionPacket) (predictions : List PredictorPacket) :
    BoomFetchPorts where
  fetch := (instructions.foldl (fun (c : FetchConnection) p => (c.sendResponse p).getD c)
    (.connect 4)).swapBuffers
  instructionMemory := .connect 4
  predictor := (predictions.foldl (fun (c : PredictorConnection) p => (c.sendResponse p).getD c)
    (.connect 4)).swapBuffers

/-- A call at address 16 of five octets, and the return from it. -/
def callTo (target : BitVec 64) : InstructionPacket :=
  { staticInfo := { instAddress := 16, instSize := 5, branchType := .call }
    nextInstruction := target }

def returnFrom (target : BitVec 64) : InstructionPacket :=
  { staticInfo := { instAddress := target, instSize := 1, branchType := .ret }
    nextInstruction := 21 }

/-- The first cycles, in which the call and the return arrive and are sent. -/
def callAndReturn (target : BitVec 64) : List BoomFetchPorts :=
  [arriving [] [], arriving [callTo target] [], arriving [] [],
    arriving [returnFrom target] [{ type := .responseDontTake, instruction := callTo target }],
    arriving [] [], arriving [] []]

/-- A cycle, with the connections as the other components leave them. -/
def boomCycle (f : BoomFetch) (ports : BoomFetchPorts) : BoomFetch × List (List BoomFetchEvent) :=
  ((f.clock ports).1, [(f.clock ports).2.2])

/-- What was sent to the stack before the last cycle, which is what it has handled. -/
def handled (log : List (List BoomFetchEvent)) : List InstructionPacket :=
  toRas log.dropLast.flatten

/-- Each return sent before the last cycle has its response, and no comparison finds a
mismatch. -/
def PredictsReturns (log : List (List BoomFetchEvent)) : Prop :=
  (fromRas log.flatten).map PredictorPacket.instruction = returns (handled log) ∧
    ∀ response ∈ fromRas log.flatten, mismatch response = false

section Nesting

variable {size : Nat} {calls : List InstructionPacket}

theorem wellNested_append (stream more : List InstructionPacket) :
    WellNested size calls (stream ++ more) ↔
      WellNested size calls stream ∧ WellNested size (stream.foldl follow calls) more := by
  induction stream generalizing calls with
  | nil => exact ⟨fun nested => ⟨trivial, nested⟩, fun nested => nested.2⟩
  | cons p stream ih =>
    rw [List.cons_append, WellNested, WellNested, ih, List.foldl_cons]
    constructor
    · rintro ⟨call, ret, front, back⟩
      exact ⟨⟨call, ret, front⟩, back⟩
    · rintro ⟨⟨call, ret, front⟩, back⟩
      exact ⟨call, ret, front, back⟩

theorem matchedCalls_append (stream more : List InstructionPacket) :
    matchedCalls calls (stream ++ more) =
      matchedCalls calls stream ++ matchedCalls (stream.foldl follow calls) more := by
  induction stream generalizing calls with
  | nil => rfl
  | cons p stream ih =>
    rw [List.cons_append, matchedCalls, matchedCalls, ih, List.foldl_cons, List.append_assoc]

theorem other_of_not_concernsRas {p : InstructionPacket} (other : ¬ concernsRas p) :
    p.staticInfo.branchType ≠ .call ∧ p.staticInfo.branchType ≠ .ret ∧
      ∀ calls, follow calls p = calls := by
  unfold concernsRas rasPacket at other
  unfold follow
  cases branch : p.staticInfo.branchType <;> simp_all

/-- Instructions other than calls and returns play no part. -/
theorem wellNested_filter (stream : List InstructionPacket) :
    WellNested size calls stream ↔ WellNested size calls (stream.filter concernsRas) := by
  induction stream generalizing calls with
  | nil => exact Iff.rfl
  | cons p stream ih =>
    by_cases concerns : concernsRas p
    · rw [List.filter_cons_of_pos concerns, WellNested, WellNested, ih]
    · obtain ⟨noCall, noReturn, same⟩ := other_of_not_concernsRas concerns
      rw [List.filter_cons_of_neg concerns, WellNested, same, ih]
      constructor
      · exact fun nested => nested.2.2
      · intro nested
        exact ⟨fun call => absurd call noCall, fun ret => absurd ret noReturn, nested⟩

/-- In a stream that is well nested every return has its call, and goes where this says. -/
theorem matchedCalls_of_wellNested (stream : List InstructionPacket)
    (nested : WellNested size calls stream) :
    (matchedCalls calls stream).map Prod.snd = returns stream ∧
      ∀ pair ∈ matchedCalls calls stream, pair.2.nextInstruction = returnAddress pair.1 := by
  induction stream generalizing calls with
  | nil => exact ⟨rfl, fun _ member => absurd member List.not_mem_nil⟩
  | cons p stream ih =>
    obtain ⟨_, ret, later⟩ := nested
    obtain ⟨paired, addresses⟩ := ih later
    rw [matchedCalls, returns]
    by_cases isReturn : p.staticInfo.branchType = .ret
    · obtain ⟨call, newest, address⟩ := ret isReturn
      rw [if_pos isReturn, newest, List.filter_cons_of_pos (by simpa using isReturn)]
      refine ⟨congrArg (p :: ·) paired, fun pair member => ?_⟩
      rcases List.mem_cons.mp member with rfl | member
      · exact address
      · exact addresses pair member
    · rw [if_neg isReturn, List.filter_cons_of_neg (by simpa using isReturn)]
      exact ⟨paired, addresses⟩

end Nesting

section Stack

/-- What the stack responds for a return. -/
def responseTo (pair : InstructionPacket × InstructionPacket) : PredictorPacket :=
  { type := .responseTakeToAddress, instruction := pair.2, target := pair.1.nextInstruction }

/-- A request about a call or a return. -/
theorem ras_request {ras : Ras} {calls : List InstructionPacket} {p : InstructionPacket}
    {packet : PredictorPacket} (holds : ras.Holds (calls.map InstructionPacket.nextInstruction))
    (nested : WellNested ras.size calls [p]) (asks : rasPacket p = some packet) :
    (ras.respond packet).2.toList = (matchedCalls calls [p]).map responseTo ∧
      (ras.respond packet).1.Holds ((follow calls p).map InstructionPacket.nextInstruction) := by
  obtain ⟨call, ret, _⟩ := nested
  unfold rasPacket at asks
  cases branch : p.staticInfo.branchType with
  | call =>
    rw [branch] at asks
    cases asks
    have room := call branch
    rw [← List.length_map InstructionPacket.nextInstruction] at room
    obtain ⟨silent, pushed⟩ := holds.update room p p.nextInstruction
    rw [silent, matchedCalls, follow, branch]
    exact ⟨rfl, pushed⟩
  | ret =>
    rw [branch] at asks
    cases asks
    obtain ⟨newest, head, _⟩ := ret branch
    obtain ⟨older, rfl⟩ : ∃ older, calls = newest :: older := by
      cases calls with
      | nil => cases head
      | cons first older =>
        cases head
        exact ⟨older, rfl⟩
    obtain ⟨answer, popped⟩ := Ras.Holds.query holds p
    rw [answer, matchedCalls, follow, branch]
    exact ⟨rfl, popped⟩
  | _ =>
    rw [branch] at asks
    cases asks

/-- What is sent to the stack in a cycle, of which it reads one request. -/
theorem ras_requests {ras : Ras} {calls sent : List InstructionPacket}
    (holds : ras.Holds (calls.map InstructionPacket.nextInstruction)) (one : sent.length ≤ 1)
    (nested : WellNested ras.size calls sent) :
    ((sent.filterMap rasPacket).take 1).filterMap (fun packet => (ras.respond packet).2) =
        (matchedCalls calls sent).map responseTo ∧
      (afterRequests Ras.respond ras ((sent.filterMap rasPacket).take 1)).Holds
        ((sent.foldl follow calls).map InstructionPacket.nextInstruction) := by
  rcases Nat.le_one_iff_eq_zero_or_eq_one.mp one with none | single
  · cases List.eq_nil_of_length_eq_zero none
    exact ⟨rfl, holds⟩
  · obtain ⟨p, rfl⟩ := List.length_eq_one_iff.mp single
    rcases asks : rasPacket p with _ | packet
    · have other : ¬ concernsRas p := by rw [concernsRas, asks]; decide
      obtain ⟨_, noReturn, same⟩ := other_of_not_concernsRas other
      rw [List.filterMap_cons_none asks, matchedCalls, if_neg noReturn, List.foldl_cons, same]
      exact ⟨rfl, holds⟩
    · obtain ⟨response, holds'⟩ := ras_request holds nested asks
      rw [List.filterMap_cons_some asks, ← response]
      refine ⟨?_, holds'⟩
      rw [List.filterMap_nil, List.take_succ_cons, List.take_zero, List.filterMap_cons]
      rcases (ras.respond packet).2 with _ | answer <;> rfl

theorem afterRequests_size (ras : Ras) (packets : List PredictorPacket) :
    (afterRequests Ras.respond ras packets).size = ras.size := by
  induction packets generalizing ras with
  | nil => rfl
  | cons packet packets ih => rw [afterRequests_cons, ih, Ras.respond_size]

end Stack

section Run

/-- What was sent to it in the last cycle. -/
def waiting (log : List (List BoomFetchEvent)) : List InstructionPacket :=
  toRas (log.getLast?.getD [])

theorem handled_append_waiting (log : List (List BoomFetchEvent)) :
    handled log ++ waiting log = toRas log.flatten := by
  rw [handled, waiting, ← toRas_append]
  congr 1
  rcases List.eq_nil_or_concat log with rfl | ⟨before, last, rfl⟩
  · rfl
  · simp

theorem handled_concat (log : List (List BoomFetchEvent)) (events : List BoomFetchEvent) :
    handled (log ++ [events]) = toRas log.flatten := by
  rw [handled, List.dropLast_concat]

theorem waiting_concat (log : List (List BoomFetchEvent)) (events : List BoomFetchEvent) :
    waiting (log ++ [events]) = toRas events := by
  rw [waiting, List.getLast?_concat]
  rfl

/-- The stack after some cycles: it has the addresses that were pushed for the calls that
are open, and has responded to the returns. -/
structure StackRun (size : Nat) (f : BoomFetch) (log : List (List BoomFetchEvent)) : Prop where
  size : f.ras.size = size
  sentRequests : f.rasConnection.sentRequests = []
  sentResponses : f.rasConnection.sentResponses = []
  readableRequests : f.rasConnection.readableRequests = (waiting log).filterMap rasPacket
  holds : f.ras.Holds (((handled log).foldl follow []).map InstructionPacket.nextInstruction)
  responses : fromRas log.flatten = (matchedCalls [] (handled log)).map responseTo

theorem StackRun.cycle {size : Nat} {f : BoomFetch} {log : List (List BoomFetchEvent)}
    (run : StackRun size f log) (one : (waiting log).length ≤ 1)
    (nested : WellNested size [] (toRas log.flatten)) (ports : BoomFetchPorts) :
    StackRun size (f.clock ports).1 (log ++ [(f.clock ports).2.2]) := by
  obtain ⟨ras, received, sentRequests, readable, sentResponses⟩ :=
    f.clock_ras ports run.sentRequests run.sentResponses
  rw [run.readableRequests] at ras received
  rw [← handled_append_waiting, wellNested_append, ← run.size] at nested
  obtain ⟨responses, holds⟩ := ras_requests run.holds one nested.2
  refine ⟨?_, sentRequests, sentResponses, ?_, ?_, ?_⟩
  · rw [ras, afterRequests_size, run.size]
  · rw [waiting_concat, readable]
  · rw [handled_concat, ← handled_append_waiting, List.foldl_append, ras]
    exact holds
  · rw [handled_concat, ← handled_append_waiting, matchedCalls_append, List.map_append,
      List.flatten_append, fromRas_append, run.responses, List.flatten_singleton, received, responses]

theorem stackRun {size : Nat} {f : BoomFetch} (ras : f.ras.size = size) (empty : f.ras.Holds [])
    {fetchSize : Nat} (connection : f.rasConnection = .connect fetchSize)
    (cycles : List BoomFetchPorts)
    (one : ∀ events ∈ (Machine.run boomCycle f cycles).2, (toRas events).length ≤ 1)
    (nested : WellNested size [] (toRas (Machine.run boomCycle f cycles).2.flatten)) :
    StackRun size (Machine.run boomCycle f cycles).1 (Machine.run boomCycle f cycles).2 := by
  refine Machine.run_induction boomCycle
    (P := fun g _ log => (∀ events ∈ log, (toRas events).length ≤ 1) →
      WellNested size [] (toRas log.flatten) → StackRun size g log)
    (fun _ _ => ?_) (fun g _ log ports before one nested => ?_) cycles one nested
  · refine ⟨ras, ?_, ?_, ?_, empty, rfl⟩
    all_goals
      rw [connection]
      rfl
  · have early : ∀ events ∈ log, (toRas events).length ≤ 1 := fun events member =>
      one events (List.mem_append_left _ member)
    rw [List.flatten_append, toRas_append, wellNested_append] at nested
    have waits : (waiting log).length ≤ 1 := by
      unfold waiting
      rcases List.eq_nil_or_concat log with rfl | ⟨front, last, rfl⟩
      · exact Nat.zero_le 1
      · rw [List.concat_eq_append, List.getLast?_concat]
        exact early last (by simp)
    dsimp only [boomCycle]
    exact (before early nested.1).cycle waits nested.1 ports

/-- Of the calls and returns that are fetched, the first ones are sent to the stack. -/
theorem toRas_isPrefix {f : BoomFetch} (empty : f.fetchBufferUsage = 0)
    (checks : f.flagsToCheck.sentToMemory = true) (cycles : List BoomFetchPorts) :
    toRas (Machine.run boomCycle f cycles).2.flatten <+:
      (fetchedBy (Machine.run boomCycle f cycles).2.flatten).filter concernsRas := by
  have flows : ∃ k, (Machine.run boomCycle f cycles).1.Parted k ∧
      (Machine.run boomCycle f cycles).1.flagsToCheck.sentToMemory = true ∧
      (fetchedBy (Machine.run boomCycle f cycles).2.flatten).filter concernsRas =
        toRas (Machine.run boomCycle f cycles).2.flatten ++
          ((Machine.run boomCycle f cycles).1.pending k).filter concernsRas := by
    refine Machine.run_induction boomCycle
      (P := fun g _ log => ∃ k, g.Parted k ∧ g.flagsToCheck.sentToMemory = true ∧
        (fetchedBy log.flatten).filter concernsRas =
          toRas log.flatten ++ (g.pending k).filter concernsRas)
      ⟨0, ⟨Nat.zero_le _, ?_, ?_⟩, checks, ?_⟩ ?_ cycles
    · exact fun j before => absurd before (Nat.not_lt_zero j)
    · exact fun j _ used => absurd used (by omega)
    · rw [pending, empty]
      rfl
    · rintro g _ log ports ⟨k, parted, checks, balance⟩
      obtain ⟨k', flow⟩ := g.clock_flow ports parted checks
      have cycle := flow.balance
      rw [List.filter_append] at cycle
      dsimp only [boomCycle]
      refine ⟨k', flow.parted, by rw [flow.flagsToCheck, checks], ?_⟩
      rw [List.flatten_append, fetchedBy_append, toRas_append, List.filter_append, balance,
        List.flatten_singleton, List.append_assoc, List.append_assoc, cycle]
  obtain ⟨k, _, _, balance⟩ := flows
  rw [balance]
  exact List.prefix_append _ _

/-- What happens in these cycles, with a call to the instruction after it and with one to
another address. -/
theorem callAndReturn_log {f : BoomFetch} {ports : BoomFetchPorts}
    (configured : BoomFetch.configure 1 none (some 8) 1 1 false 1 false = .ok (f, ports))
    {target : BitVec 64} (either : target = 21 ∨ target = 64) :
    (Machine.run boomCycle f (callAndReturn target)).2 =
      [[], [.fetched (callTo target)], [.sentToRas (callTo target)],
        [.fetched (returnFrom target)], [.sentToRas (returnFrom target)],
        [.receivedFromRas (responseTo (callTo target, returnFrom target))]] := by
  cases configured
  rcases either with rfl | rfl <;> rfl

end Run

theorem boom_fetch_predicts_returns {misspredictPenalty : Int} {fetchInterval fetchSize : Option Int}
    {interleavingFactor numberOfEntries : Int} {btbSendTo : Bool} {size : Int} {rasSendTo : Bool}
    {f : BoomFetch} {ports : BoomFetchPorts}
    (configured : BoomFetch.configure misspredictPenalty fetchInterval fetchSize interleavingFactor
      numberOfEntries btbSendTo size rasSendTo = .ok (f, ports))
    (cycles : List BoomFetchPorts)
    (nested : WellNested size.toNat [] (fetchedBy (Machine.run boomCycle f cycles).2.flatten))
    (one : ∀ events ∈ (Machine.run boomCycle f cycles).2, (toRas events).length ≤ 1) :
    PredictsReturns (Machine.run boomCycle f cycles).2 ↔
      ∀ pair ∈ matchedCalls [] (handled (Machine.run boomCycle f cycles).2),
        pair.1.nextInstruction = returnAddress pair.1 := by
  obtain ⟨stack, connection, unused, checks⟩ := BoomFetch.configure_eq configured
  obtain ⟨_, sized, _, empty⟩ := Ras.configure_eq stack
  obtain ⟨rest, sent⟩ := toRas_isPrefix unused (by rw [checks]) cycles
  rw [wellNested_filter, ← sent, wellNested_append] at nested
  have run := stackRun sized empty connection cycles one nested.1
  have early := nested.1
  rw [← handled_append_waiting, wellNested_append] at early
  obtain ⟨paired, addresses⟩ := matchedCalls_of_wellNested _ early.1
  unfold PredictsReturns
  rw [run.responses, List.map_map]
  have answered : (matchedCalls [] (handled (Machine.run boomCycle f cycles).2)).map
      (PredictorPacket.instruction ∘ responseTo) =
        returns (handled (Machine.run boomCycle f cycles).2) := paired
  constructor
  · rintro ⟨_, matches_⟩ pair member
    have same := matches_ _ (List.mem_map_of_mem member)
    rw [mismatch, decide_eq_false_iff_not, not_not] at same
    exact same.symm.trans (addresses pair member)
  · intro falls
    refine ⟨answered, fun response member => ?_⟩
    obtain ⟨pair, here, rfl⟩ := List.mem_map.mp member
    rw [mismatch, decide_eq_false_iff_not, not_not]
    exact (addresses pair here).trans (falls pair here).symm

/-- A call to the instruction after it. -/
theorem boom_fetch_predicts_fall_through : ∃ (f : BoomFetch) (ports : BoomFetchPorts),
    BoomFetch.configure 1 none (some 8) 1 1 false 1 false = .ok (f, ports) ∧
      PredictsReturns (Machine.run boomCycle f (callAndReturn 21)).2 := by
  obtain ⟨f, ports, configured⟩ : ∃ (f : BoomFetch) (ports : BoomFetchPorts),
      BoomFetch.configure 1 none (some 8) 1 1 false 1 false = .ok (f, ports) := ⟨_, _, rfl⟩
  have log := callAndReturn_log configured (Or.inl rfl)
  refine ⟨f, ports, configured, ?_⟩
  refine (boom_fetch_predicts_returns configured (callAndReturn 21) ?_ ?_).mpr ?_
  · rw [log]
    simp [WellNested, fetchedBy, follow, callTo, returnFrom, returnAddress]
  · rw [log]
    simp [toRas]
  · rw [log]
    simp [handled, toRas, matchedCalls, follow, callTo, returnFrom, returnAddress]

/-- A call to address 64: the return is expected to go there. -/
theorem called_address_is_expected : ∃ (f : BoomFetch) (ports : BoomFetchPorts),
    BoomFetch.configure 1 none (some 8) 1 1 false 1 false = .ok (f, ports) ∧
      WellNested 1 [] (fetchedBy (Machine.run boomCycle f (callAndReturn 64)).2.flatten) ∧
      (∀ events ∈ (Machine.run boomCycle f (callAndReturn 64)).2, (toRas events).length ≤ 1) ∧
      ¬ PredictsReturns (Machine.run boomCycle f (callAndReturn 64)).2 := by
  obtain ⟨f, ports, configured⟩ : ∃ (f : BoomFetch) (ports : BoomFetchPorts),
      BoomFetch.configure 1 none (some 8) 1 1 false 1 false = .ok (f, ports) := ⟨_, _, rfl⟩
  refine ⟨f, ports, configured, ?_⟩
  rw [callAndReturn_log configured (Or.inr rfl)]
  refine ⟨?_, ?_, ?_⟩
  · simp [WellNested, fetchedBy, follow, callTo, returnFrom, returnAddress]
  · simp [toRas]
  · rintro ⟨_, agrees⟩
    have compared := agrees (responseTo (callTo 64, returnFrom 64)) (by simp [fromRas])
    simp [mismatch, responseTo, callTo, returnFrom] at compared

end Sinuca3.Guarantees
