import Sinuca3.Source.StdComponents.BoomFetchScans

/-!
# Boom fetch with a predictor that answers at once

Between two clocks the entries are, in order, those whose response waits, those whose
queries the predictor and the branch target buffer will find, and the new ones. A clock
lets the first leave, and each of the others takes the place of those before it.
-/
namespace Sinuca3.Source
open Lib

namespace BoomFetch

structure Cohorts (f : BoomFetch) (answered asked fresh : List BoomFetchBufferEntry) : Prop where
  aligned : f.Aligned [] (answered ++ asked) fresh
  done : ∀ e ∈ answered, checkAwaiting e = none
  queries : f.queriesFound = FirstMatch.count checkAwaiting asked
  updates : f.btbConnection.sentRequests.length ≤ answered.length
  btbSize : f.btbConnection.bufferSize = f.fetchSize
  returns : f.rasConnection.readableRequests.length ≤ asked.length
  rasUnsent : f.rasConnection.sentRequests = []
  rasUnanswered : f.rasConnection.sentResponses = []
  rasSize : f.rasConnection.bufferSize = f.fetchSize

/-- The connections of a clock, with a response for each of the entries that wait for one. -/
structure Prompt (f : BoomFetch) (ports : BoomFetchPorts)
    (answered : List BoomFetchBufferEntry) : Prop where
  memoryUnsent : ports.instructionMemory.sentRequests = []
  memorySize : ports.instructionMemory.bufferSize = f.fetchSize
  predictorUnsent : ports.predictor.sentRequests = []
  predictorSize : ports.predictor.bufferSize = f.fetchSize
  responses : ports.predictor.readableResponses.length = answered.length

section Clock

variable {f : BoomFetch} {answered asked fresh : List BoomFetchBufferEntry}
  {ports : BoomFetchPorts}

/-- All new entries are sent: no connection has less room than the buffer. -/
theorem Cohorts.send (cohorts : f.Cohorts answered asked fresh) (prompt : f.Prompt ports answered) :
    (f.clockSendBuffered ports).1.Aligned [] (answered ++ (asked ++ fresh.map .sent)) [] ∧
      Sends f ports (f.clockSendBuffered ports).1 (f.clockSendBuffered ports).2.1
        (fresh.map BoomFetchBufferEntry.instruction) := by
  have room := cohorts.aligned.room
  have usage := cohorts.aligned.usage
  rw [List.length_append, List.length_nil] at usage
  obtain ⟨k, within, aligned, sends, stops⟩ := cohorts.aligned.send ports
  have all : k = fresh.length := by
    by_contra short
    have few : ((fresh.take k).map BoomFetchBufferEntry.instruction).length = k := by
      rw [List.length_map, List.length_take, Nat.min_eq_left within]
    have calls := List.length_filterMap_le rasPacket
      ((fresh.take k).map BoomFetchBufferEntry.instruction)
    have branches := List.length_filter_le isBranch
      ((fresh.take k).map BoomFetchBufferEntry.instruction)
    have updates := cohorts.updates
    have available : (f.clockSendBuffered ports).1.available (f.clockSendBuffered ports).2.1 =
        true := by
      unfold available
      rw [Connection.isConnectionAvailable_of_room, Connection.isConnectionAvailable_of_room,
        Connection.isConnectionAvailable_of_room, Connection.isConnectionAvailable_of_room]
      · rfl
      · rw [sends.btbConnection.sentRequests, sends.btbConnection.bufferSize, cohorts.btbSize,
          List.length_append, List.length_map]
        omega
      · rw [sends.rasConnection.sentRequests, sends.rasConnection.bufferSize, cohorts.rasSize,
          cohorts.rasUnsent, List.nil_append]
        omega
      · rw [sends.predictor.sentRequests, sends.predictor.bufferSize, prompt.predictorSize,
          prompt.predictorUnsent, List.nil_append, List.length_map]
        omega
      · rw [sends.memory.sentRequests, sends.memory.bufferSize, prompt.memorySize,
          prompt.memoryUnsent, List.nil_append]
        omega
    rw [stops (by omega)] at available
    cases available
  rw [all, List.take_length] at aligned sends
  rw [List.drop_length, List.append_assoc] at aligned
  exact ⟨aligned, sends⟩

/-- An entry once the buffer has responded, if it awaited that. -/
def responded (entry : BoomFetchBufferEntry) : BoomFetchBufferEntry :=
  (checkAwaiting entry).getD entry

theorem responded_instruction (entry : BoomFetchBufferEntry) :
    (responded entry).instruction = entry.instruction := by
  unfold responded checkAwaiting
  split <;> rfl

/-- Responses to all queries are for all entries that await one, if those are the first. -/
theorem Aligned.respond {g : BoomFetch} {checked new : List BoomFetchBufferEntry}
    (aligned : g.Aligned checked (asked ++ new) []) (done : ∀ e ∈ checked, checkAwaiting e = none)
    (found : g.queriesFound = FirstMatch.count checkAwaiting asked) :
    g.clockCheckBTB.2.Aligned checked (asked.map responded ++ new) [] := by
  have quiet : FirstMatch.count checkAwaiting checked = 0 := FirstMatch.count_eq_zero _ done
  obtain ⟨checked', sent', aligned', first, second⟩ := aligned.checkBTB
  obtain ⟨rewrites, _⟩ := g.clockCheckBTB_contents aligned.unanswered
    (Nat.le_trans (Nat.le_add_right ..) aligned.asked) (Nat.le_of_lt aligned.room)
  have all : g.queriesFound = FirstMatch.count checkAwaiting (checked ++ asked) := by
    rw [found, FirstMatch.count_append, quiet, Nat.zero_add]
  have same : checked.map responded = checked := by
    refine (List.map_congr_left fun e member => ?_).trans (List.map_id checked)
    unfold responded
    rw [done e member]
    rfl
  have whole : checked' ++ sent' = checked ++ (asked.map responded ++ new) := by
    calc checked' ++ sent'
      _ = g.clockCheckBTB.2.contents := by rw [aligned'.contents, List.append_nil]
      _ = (List.replaceF checkAwaiting)^[g.queriesFound] ((checked ++ asked) ++ new) := by
          rw [rewrites.contents, aligned.contents, List.append_nil, List.append_assoc]
      _ = (checked ++ asked).map responded ++ new := by
          rw [all]
          exact FirstMatch.iterate_replaceF checkAwaiting_once _ _
      _ = checked ++ (asked.map responded ++ new) := by
          rw [List.map_append, same, List.append_assoc]
  obtain ⟨rfl, rfl⟩ := List.append_inj whole first
  exact aligned'

/-- The entries whose response waits are checked, and those asked about get theirs of the
buffer. -/
theorem Cohorts.check (cohorts : f.Cohorts answered asked fresh)
    (prompt : f.Prompt ports answered) :
    ∃ checked, ((f.clockSendBuffered ports).1.clockCheckPredictor
          (f.clockSendBuffered ports).2.1).2.1.clockCheckRas.2.1.clockCheckBTB.2.Aligned checked
        (asked.map responded ++ fresh.map .sent) [] ∧
      (∀ e ∈ checked, checkAwaiting e = none) := by
  obtain ⟨first, sends⟩ := cohorts.send prompt
  have responses : (f.clockSendBuffered ports).2.1.predictor.readableResponses.length =
      answered.length := by
    rw [sends.predictor.readableResponses]
    exact prompt.responses
  obtain ⟨second, own⟩ := first.check (f.clockSendBuffered ports).2.1 (by
    rw [responses, List.length_append]
    omega)
  rw [responses, List.take_left, List.drop_left, List.nil_append] at second
  generalize (f.clockSendBuffered ports).1.clockCheckPredictor (f.clockSendBuffered ports).2.1 =
    predicted at second own ⊢
  have third := second.checkRas
  have found : predicted.2.1.clockCheckRas.2.1.queriesFound =
      FirstMatch.count checkAwaiting asked := by
    rw [← cohorts.queries]
    change (predicted.2.1.btbConnection.readableRequests.filter isQuery).length = _
    rw [own.btbConnection, sends.btbConnection.readableRequests]
    rfl
  generalize predicted.2.1.clockCheckRas.2.1 = stacked at third found ⊢
  have done : ∀ e ∈ answered.map (BoomFetchBufferEntry.setFlags .setPredictorCheck),
      checkAwaiting e = none := by
    intro e member
    obtain ⟨entry, here, rfl⟩ := List.mem_map.mp member
    have idle := congrArg Option.isSome (cohorts.done entry here)
    rw [isSome_checkAwaiting] at idle
    rw [← Option.not_isSome_iff_eq_none, isSome_checkAwaiting]
    exact Bool.eq_false_iff.mp idle
  exact ⟨_, third.respond done found, done⟩

/-- The checks leave what was sent to the components of boom fetch for their next clock. -/
theorem Aligned.checkConnections {checked sent : List BoomFetchBufferEntry}
    (aligned : f.Aligned checked sent fresh) (ports : BoomFetchPorts)
    (enough : ports.predictor.readableResponses.length ≤ sent.length)
    (idle : f.rasConnection.sentResponses = []) :
    ∃ g, g = (f.clockCheckPredictor ports).2.1.clockCheckRas.2.1.clockCheckBTB.2 ∧
      f.rasConnection.Views g.rasConnection [] f.rasConnection.sentRequests [] [] ∧
      g.btbConnection.bufferSize = f.btbConnection.bufferSize ∧
      g.btbConnection.readableRequests = f.btbConnection.sentRequests ∧
      g.btbConnection.sentRequests.length ≤ f.queriesFound := by
  obtain ⟨second, own⟩ := aligned.check ports enough
  have third := second.checkRas
  refine ⟨_, rfl, ?_⟩
  generalize f.clockCheckPredictor ports = predicted at second third own ⊢
  obtain ⟨_, views⟩ := predicted.2.1.clockedRas_views (by rw [own.rasConnection]; exact idle)
  obtain ⟨_, ras, size, readable, _, few, _⟩ :=
    predicted.2.1.clockCheckRas.2.1.clockCheckBTB_contents third.unanswered
      (Nat.le_trans (Nat.le_add_right ..) third.asked) (Nat.le_of_lt third.room)
  have found : predicted.2.1.clockCheckRas.2.1.queriesFound = f.queriesFound := by
    change (predicted.2.1.btbConnection.readableRequests.filter isQuery).length = _
    rw [own.btbConnection]
    rfl
  rw [ras, size, readable, ← found]
  rw [own.rasConnection] at views
  refine ⟨views, ?_, ?_, few⟩
  · exact congrArg Connection.bufferSize own.btbConnection
  · exact congrArg Connection.sentRequests own.btbConnection

/-- The first five calls: the entries whose response waits leave, and all new ones are sent. -/
theorem Cohorts.buffered (cohorts : f.Cohorts answered asked fresh)
    (prompt : f.Prompt ports answered) :
    (f.clockBuffered ports).2.1.Cohorts (asked.map responded) (fresh.map .sent) [] := by
  obtain ⟨first, sends⟩ := cohorts.send prompt
  obtain ⟨checked, fourth, gone⟩ := cohorts.check prompt
  obtain ⟨g, same, ras, btbSize, readable, few⟩ :=
    first.checkConnections (f.clockSendBuffered ports).2.1
      (by
        rw [sends.predictor.readableResponses, prompt.responses, List.length_append]
        omega)
      (by
        rw [sends.rasConnection.sentResponses]
        exact cohorts.rasUnanswered)
  have result : (f.clockBuffered ports).2.1 = g.clockUnbuffer := by
    rw [same]
    rfl
  have size := (fields_of_same_control (f.clockBuffered_control ports)).1
  rw [result] at size ⊢
  rw [← same] at fourth
  clear same
  obtain ⟨fifth, _⟩ := fourth.unbuffer
  obtain ⟨_, _, own⟩ := g.clockUnbuffer_contents
  have all : ∀ e ∈ checked, leaves g.flagsToCheck e = true := by
    intro e member
    have idle := congrArg Option.isSome (gone e member)
    rw [isSome_checkAwaiting] at idle
    change e.flags.awaitsBTB = false at idle
    obtain ⟨sent, checked⟩ := fourth.checked e member
    unfold leaves BoomFetchBufferEntryFlags.contains
    rw [fourth.toCheck, idle]
    simp [sent, checked]
  rw [List.dropWhile_eq_nil_iff.mpr all] at fifth
  -- The queries are those of the entries that await a response.
  have asked' := cohorts.aligned.asked
  have counted := cohorts.queries
  rw [cohorts.aligned.contents, List.nil_append, FirstMatch.count_append, FirstMatch.count_append,
    FirstMatch.count_eq_zero checkAwaiting cohorts.done, count_fresh cohorts.aligned.fresh] at asked'
  change f.queriesFound + _ ≤ _ at asked'
  have found : (f.clockSendBuffered ports).1.queriesFound = f.queriesFound := by
    unfold queriesFound
    rw [sends.btbConnection.readableRequests]
  have awaiting : FirstMatch.count checkAwaiting asked ≤ asked.length := List.countP_le_length
  refine ⟨fifth, ?_, ?_, ?_, ?_, ?_, ?_, ?_, ?_⟩
  · intro e member
    obtain ⟨entry, _, rfl⟩ := List.mem_map.mp member
    exact FirstMatch.getD_eq_none checkAwaiting_once entry
  · unfold queriesFound
    rw [own.btbConnection, readable, sends.btbConnection.sentRequests, List.filter_append,
      List.length_append, count_sent cohorts.aligned.fresh]
    rw [length_filter_queries]
    omega
  · rw [own.btbConnection, List.length_map]
    omega
  · rw [own.btbConnection, btbSize, sends.btbConnection.bufferSize, cohorts.btbSize, size]
  · rw [own.rasConnection, ras.readableRequests, sends.rasConnection.sentRequests,
      cohorts.rasUnsent, List.nil_append, List.length_map]
    have calls := List.length_filterMap_le rasPacket
      (fresh.map BoomFetchBufferEntry.instruction)
    rw [List.length_map] at calls
    exact calls
  · rw [own.rasConnection]
    exact ras.sentRequests
  · rw [own.rasConnection]
    exact ras.sentResponses
  · rw [own.rasConnection, ras.bufferSize, sends.rasConnection.bufferSize, cohorts.rasSize, size]

/-- What they leave of the other connections. -/
theorem Cohorts.otherConnections (cohorts : f.Cohorts answered asked fresh)
    (prompt : f.Prompt ports answered) :
    (f.clockBuffered ports).2.2.1.fetch = ports.fetch ∧
      (f.clockBuffered ports).2.2.1.instructionMemory.bufferSize = f.fetchSize ∧
      ports.predictor.Views (f.clockBuffered ports).2.2.1.predictor
        (fresh.map fun entry => query entry.instruction) ports.predictor.readableRequests
        ports.predictor.sentResponses [] := by
  obtain ⟨_, sends⟩ := cohorts.send prompt
  obtain ⟨fetch, predictor⟩ := clockCheckPredictor_ports (f.clockSendBuffered ports).1
    (f.clockSendBuffered ports).2.1
  have memory := sends.memory.bufferSize
  have both := sends.predictor.trans predictor
  rw [sends.predictor.sentRequests, sends.predictor.readableRequests,
    sends.predictor.sentResponses, prompt.predictorUnsent, List.nil_append, List.map_map] at both
  exact ⟨fetch.trans sends.fetch, memory.trans prompt.memorySize, both⟩

/-- Without an entry that a response could be for, a prediction is taken for wrong. -/
theorem Cohorts.missed (cohorts : f.Cohorts [] [] fresh) (prompt : f.Prompt ports []) :
    (f.clockBuffered ports).1 = true := by
  obtain ⟨first, sends⟩ := cohorts.send prompt
  have silent : (f.clockSendBuffered ports).2.1.predictor.readableResponses = [] := by
    rw [sends.predictor.readableResponses]
    exact List.length_eq_zero_iff.mp prompt.responses
  obtain ⟨_, drained, _⟩ := (f.clockSendBuffered ports).2.1.predictor.drainResponses_eq
  obtain ⟨second, own⟩ := first.check (f.clockSendBuffered ports).2.1 (by rw [silent]; simp)
  have third := second.checkRas
  have predicted : ((f.clockSendBuffered ports).1.clockCheckPredictor
      (f.clockSendBuffered ports).2.1).1 = true := by
    unfold clockCheckPredictor
    rw [drained, silent]
    rfl
  have result : (f.clockBuffered ports).1 = (((f.clockSendBuffered ports).1.clockCheckPredictor
      (f.clockSendBuffered ports).2.1).1 && ((f.clockSendBuffered ports).1.clockCheckPredictor
        (f.clockSendBuffered ports).2.1).2.1.clockCheckRas.1 &&
      ((f.clockSendBuffered ports).1.clockCheckPredictor
        (f.clockSendBuffered ports).2.1).2.1.clockCheckRas.2.1.clockCheckBTB.1) := rfl
  rw [result, predicted, Bool.true_and]
  generalize (f.clockSendBuffered ports).1.clockCheckPredictor (f.clockSendBuffered ports).2.1 =
    predicted at second own third ⊢
  obtain ⟨few, _⟩ := predicted.2.1.clockedRas_views (by
    rw [own.rasConnection, sends.rasConnection.sentResponses]
    exact cohorts.rasUnanswered)
  have returns := cohorts.returns
  rw [own.rasConnection, sends.rasConnection.readableRequests] at few
  have ras : predicted.2.1.clockCheckRas.1 = true := by
    have none : predicted.2.1.clockedRas.1 = [] :=
      List.length_eq_zero_iff.mp (Nat.le_zero.mp (Nat.le_trans few returns))
    unfold clockCheckRas
    dsimp only
    rw [none]
    rfl
  have btb : predicted.2.1.clockCheckRas.2.1.clockCheckBTB.1 = true := by
    obtain ⟨responses, _⟩ := predicted.2.1.clockCheckRas.2.1.clockedBTB_eq third.unanswered
    have queries := cohorts.queries
    have same : predicted.2.1.clockCheckRas.2.1.btbConnection.readableRequests =
        f.btbConnection.readableRequests := by
      change predicted.2.1.btbConnection.readableRequests = _
      rw [own.btbConnection, sends.btbConnection.readableRequests]
    rw [same] at responses
    unfold clockCheckBTB
    dsimp only
    rw [List.length_eq_zero_iff.mp (responses.trans queries)]
    rfl
  rw [ras, btb]
  rfl

/-- The penalty and the clock of the requests do not matter. -/
theorem Cohorts.counters (cohorts : f.Cohorts answered asked fresh)
    (misspredictions currentPenalty fetchClock : Nat) :
    Cohorts { f with
      misspredictions
      currentPenalty
      fetchClock } answered asked fresh :=
  ⟨cohorts.aligned.counters _ _ _, cohorts.done, cohorts.queries, cohorts.updates, cohorts.btbSize,
    cohorts.returns, cohorts.rasUnsent, cohorts.rasUnanswered, cohorts.rasSize⟩

/-- What is received is new. -/
theorem Cohorts.fetch (cohorts : f.Cohorts answered asked [])
    (room : f.fetchBufferUsage + ports.fetch.readableResponses.length < f.fetchSize) :
    (f.clockFetchAndRequest ports).1.Cohorts answered asked
      (ports.fetch.readableResponses.map freshEntry) := by
  have aligned := cohorts.aligned.fetch ports room
  obtain ⟨_, _, own, _⟩ := f.clockFetchAndRequest_contents ports
  have size : (f.clockFetchAndRequest ports).1.fetchSize = f.fetchSize :=
    (fields_of_control (f.clockFetchAndRequest_control ports)).1
  refine ⟨aligned, cohorts.done, ?_, ?_, ?_, ?_, ?_, ?_, ?_⟩
  · unfold queriesFound
    rw [own.btbConnection]
    exact cohorts.queries
  · rw [own.btbConnection]
    exact cohorts.updates
  · rw [own.btbConnection, size]
    exact cohorts.btbSize
  · rw [own.rasConnection]
    exact cohorts.returns
  · rw [own.rasConnection]
    exact cohorts.rasUnsent
  · rw [own.rasConnection]
    exact cohorts.rasUnanswered
  · rw [own.rasConnection, size]
    exact cohorts.rasSize

end Clock

section Whole

variable {f : BoomFetch} {answered asked fresh : List BoomFetchBufferEntry}
  {ports : BoomFetchPorts}

/-- The entries for what a clock receives. -/
def taken (f : BoomFetch) (ports : BoomFetchPorts) : List BoomFetchBufferEntry :=
  if f.returnsEarly ports then [] else ports.fetch.readableResponses.map freshEntry

/-- A clock of which what it takes fits. -/
theorem Cohorts.clock (cohorts : f.Cohorts answered asked fresh) (prompt : f.Prompt ports answered)
    (room : asked.length + fresh.length + (f.taken ports).length < f.fetchSize) :
    (f.clock ports).1.Cohorts (asked.map responded) (fresh.map .sent) (f.taken ports) := by
  have buffered := cohorts.buffered prompt
  obtain ⟨fetch, _⟩ := cohorts.otherConnections prompt
  have size := (fields_of_same_control (f.clockBuffered_control ports)).1
  have usage := buffered.aligned.usage
  rw [List.length_append, List.length_map, List.length_map, List.length_nil, Nat.zero_add,
    Nat.add_zero] at usage
  unfold taken at room ⊢
  cases early : f.returnsEarly ports with
  | true =>
    obtain ⟨_, _, _, clocked, _⟩ := f.clock_of_early ports early
    rw [clocked, if_pos rfl]
    generalize f.clockBuffered ports = after at buffered ⊢
    exact buffered.counters _ _ _
  | false =>
    obtain ⟨paid, same, clocked⟩ := f.clock_of_fetch ports early
    rw [early, if_neg Bool.false_ne_true, List.length_map] at room
    rw [clocked, if_neg Bool.false_ne_true]
    generalize f.clockBuffered ports = after at buffered fetch size usage same ⊢
    have counted : paid.Cohorts (asked.map responded) (fresh.map .sent) [] := by
      rw [same]
      exact buffered.counters _ _ _
    have usage' : paid.fetchBufferUsage = after.2.1.fetchBufferUsage := by rw [same]
    have size' : paid.fetchSize = f.fetchSize := by
      rw [same]
      exact size
    rw [← fetch]
    refine counted.fetch ?_
    rw [fetch, usage', usage, size']
    exact room

/-- What a clock leaves of the connections of boom fetch. -/
theorem Cohorts.clockConnections (cohorts : f.Cohorts answered asked fresh)
    (prompt : f.Prompt ports answered) (unsent : ports.fetch.sentRequests = []) :
    (f.clock ports).2.1.instructionMemory.bufferSize = f.fetchSize ∧
      ports.predictor.Views (f.clock ports).2.1.predictor
        (fresh.map fun entry => query entry.instruction) ports.predictor.readableRequests
        ports.predictor.sentResponses [] ∧
      (f.clock ports).2.1.fetch.bufferSize = ports.fetch.bufferSize ∧
      (f.clock ports).2.1.fetch.sentResponses = ports.fetch.sentResponses ∧
      (f.clock ports).2.1.fetch.sentRequests =
        if f.returnsEarly ports = false ∧ f.fetchClock % f.fetchInterval = 0 then
          [(f.clock ports).1.request]
        else [] := by
  obtain ⟨fetch, memory, predictor⟩ := cohorts.otherConnections prompt
  obtain ⟨_, interval, tick, _⟩ := fields_of_same_control (f.clockBuffered_control ports)
  cases early : f.returnsEarly ports with
  | true =>
    obtain ⟨_, _, _, clocked, _⟩ := f.clock_of_early ports early
    rw [clocked, if_neg (by simp)]
    dsimp only
    rw [fetch]
    exact ⟨memory, predictor, rfl, rfl, unsent⟩
  | false =>
    obtain ⟨paid, same, clocked⟩ := f.clock_of_fetch ports early
    rw [clocked]
    generalize f.clockBuffered ports = after at memory predictor fetch interval tick same ⊢
    have interval' : paid.fetchInterval = f.fetchInterval := by rw [same]; exact interval
    have tick' : paid.fetchClock = f.fetchClock := by rw [same]; exact tick
    obtain ⟨_, _, _, memory', predictor'⟩ := paid.clockFetchAndRequest_contents after.2.2.1
    have views := paid.clockFetchAndRequest_fetch after.2.2.1 (by rw [fetch]; exact unsent)
    dsimp only
    rw [memory', predictor', views.bufferSize, views.sentResponses, views.sentRequests, fetch,
      interval', tick']
    refine ⟨memory, predictor, rfl, rfl, ?_⟩
    by_cases due : f.fetchClock % f.fetchInterval = 0
    · rw [if_pos due, if_pos ⟨rfl, due⟩]
    · rw [if_neg due, if_neg fun both => due both.2]

end Whole

end BoomFetch

end Sinuca3.Source
