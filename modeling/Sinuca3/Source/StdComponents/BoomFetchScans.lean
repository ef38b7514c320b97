import Mathlib.Data.List.TakeWhile
import Sinuca3.Source.StdComponents.BoomFetchContents

/-!
# The cells that boom fetch reads

The loops that look for a flag have no bound of their own: what stops them is an entry
without the flag, or the last cell of the array, which is as `Configure` left it as long
as the buffer does not fill up.
-/
namespace Sinuca3.Source
open Lib

namespace BoomFetch

section Accesses

variable (f : BoomFetch)

/-- The cells a loop `while (..) ++i` reads; of those past the end, the first. -/
def scanned (passes : BoomFetchBufferEntryFlags → Bool) : List Nat :=
  List.range (f.skipWhile passes f.fetchSize 0 + 1)

/-- Those of `ClockSendBuffered`: a loop to the first entry that is not sent, and from
there on at most all entries in use. -/
def sendAccesses : List Nat :=
  f.scanned (·.sentToMemory) ++ List.range f.fetchBufferUsage

/-- Those of `ClockCheckPredictor`: a loop to the first entry that is not checked, and
from there on one entry for each response. -/
def predictorAccesses (responses : List PredictorPacket) : List Nat :=
  f.scanned (·.predictorCheck) ++
    List.range' (f.skipWhile (·.predictorCheck) f.fetchSize 0) responses.length

/-- Those of `ClockCheckBTB`: a loop for each response. -/
def btbAccesses : List BTBPacket → BoomFetch → List Nat
  | [], _ => []
  | response :: responses, f =>
    f.scanned (!·.awaitsBTB) ++ btbAccesses responses (checkBTB [response] f).2

/-- Those of `ClockFetch`: a slot for each response, and one for the read that finds none. -/
def fetchAccesses (responses : List InstructionPacket) : List Nat :=
  List.range' f.fetchBufferUsage (responses.length + 1)

/-- The cells read and written by the loops of the first five calls of a clock. -/
def bufferedAccesses (ports : BoomFetchPorts) : List Nat :=
  let sent := f.clockSendBuffered ports
  let predicted := sent.1.clockCheckPredictor sent.2.1
  let btb := predicted.2.1.clockCheckRas.2.1.clockedBTB
  f.sendAccesses ++ sent.1.predictorAccesses sent.2.1.predictor.readableResponses ++
    btbAccesses btb.1 btb.2

/-- And by those of a clock. -/
def accesses (ports : BoomFetchPorts) : List Nat :=
  let buffered := f.clockBuffered ports
  f.bufferedAccesses ports ++
    if f.returnsEarly ports then []
    else buffered.2.1.fetchAccesses buffered.2.2.1.fetch.readableResponses

end Accesses

/-- The buffer between two parts of a clock: entries that the predictor has checked, that
are sent, and that are new, and a last cell that was never in use. The buffer is asked
about entries that await it. -/
structure Aligned (f : BoomFetch) (checked sent fresh : List BoomFetchBufferEntry) : Prop where
  contents : f.contents = checked ++ (sent ++ fresh)
  checked : ∀ e ∈ checked, e.flags.sentToMemory = true ∧ e.flags.predictorCheck = true
  sent : ∀ e ∈ sent, e.flags.sentToMemory = true ∧ e.flags.predictorCheck = false
  fresh : ∀ e ∈ fresh, e.flags = {}
  toCheck : f.flagsToCheck = { sentToMemory := true, predictorCheck := true }
  room : f.fetchBufferUsage < f.fetchSize
  last : (f.fetchBuffer (f.fetchSize - 1)).flags = {}
  unanswered : f.btbConnection.sentResponses = []
  asked : (f.btbConnection.readableRequests.filter isQuery).length +
    (f.btbConnection.sentRequests.filter isQuery).length ≤ FirstMatch.count checkAwaiting f.contents

section Bounds

variable {f : BoomFetch} {checked sent fresh : List BoomFetchBufferEntry}

/-- A loop that stops at a cell of the array stays within it. -/
theorem scanned_lt {passes : BoomFetchBufferEntryFlags → Bool} {j : Nat} (inside : j < f.fetchSize)
    (stops : passes (f.fetchBuffer j).flags = false) : ∀ i ∈ f.scanned passes, i < f.fetchSize := by
  obtain ⟨_, within, all, _⟩ := f.skipWhile_le passes f.fetchSize 0
  intro i member
  have bound := List.mem_range.mp member
  by_contra beyond
  have passed := all j (Nat.zero_le j) (by omega)
  rw [stops] at passed
  cases passed

/-- A loop on a flag that the last cell does not have. -/
theorem Aligned.scanned_last (aligned : f.Aligned checked sent fresh)
    {passes : BoomFetchBufferEntryFlags → Bool} (clear : passes {} = false) :
    ∀ i ∈ f.scanned passes, i < f.fetchSize := by
  have room := aligned.room
  refine scanned_lt (show f.fetchSize - 1 < f.fetchSize by omega) ?_
  rw [aligned.last]
  exact clear

end Bounds

section Steps

variable {f g : BoomFetch} {checked sent fresh checked' sent' fresh' : List BoomFetchBufferEntry}

theorem Aligned.usage (aligned : f.Aligned checked sent fresh) :
    f.fetchBufferUsage = checked.length + sent.length + fresh.length := by
  rw [← f.contents_length, aligned.contents, List.length_append, List.length_append, Nat.add_assoc]

/-- Entries in use that are changed. -/
theorem Aligned.rewrites (aligned : f.Aligned checked sent fresh)
    (rewrites : Rewrites f g (checked' ++ (sent' ++ fresh')))
    (checkedFlags : ∀ e ∈ checked', e.flags.sentToMemory = true ∧ e.flags.predictorCheck = true)
    (sentFlags : ∀ e ∈ sent', e.flags.sentToMemory = true ∧ e.flags.predictorCheck = false)
    (freshFlags : ∀ e ∈ fresh', e.flags = {}) (unanswered : g.btbConnection.sentResponses = [])
    (asked : (g.btbConnection.readableRequests.filter isQuery).length +
      (g.btbConnection.sentRequests.filter isQuery).length ≤
        FirstMatch.count checkAwaiting g.contents) :
    g.Aligned checked' sent' fresh' := by
  obtain ⟨size, _, _, _, _, _, toCheck⟩ := fields_of_same_control rewrites.control
  have room := aligned.room
  refine ⟨rewrites.contents, checkedFlags, sentFlags, freshFlags, toCheck.trans aligned.toCheck,
    ?_, ?_, unanswered, asked⟩
  · rw [rewrites.usage, size]
    exact room
  · rw [size, rewrites.beyond _ (by omega)]
    exact aligned.last

/-- A new entry that is sent awaits the buffer if it is a branch. -/
theorem sent_of_fresh {entry : BoomFetchBufferEntry} (fresh : entry.flags = {}) :
    entry.sent.flags.sentToMemory = true ∧ entry.sent.flags.predictorCheck = false ∧
      entry.sent.flags.awaitsBTB = isBranch entry.instruction := by
  unfold BoomFetchBufferEntry.sent
  dsimp only
  rw [fresh]
  by_cases concerns : concernsRas entry.instruction <;>
    by_cases branch : isBranch entry.instruction <;>
      simp [concerns, branch, BoomFetchBufferEntryFlags.setSent,
        BoomFetchBufferEntryFlags.setSentToRas, BoomFetchBufferEntryFlags.setSentToBTB,
        BoomFetchBufferEntryFlags.awaitsBTB]

theorem count_sent {entries : List BoomFetchBufferEntry} (fresh : ∀ e ∈ entries, e.flags = {}) :
    FirstMatch.count checkAwaiting (entries.map .sent) =
      ((entries.map BoomFetchBufferEntry.instruction).filter isBranch).length := by
  induction entries with
  | nil => rfl
  | cons entry entries ih =>
    have later := ih fun e member => fresh e (List.mem_cons_of_mem entry member)
    have awaits := (sent_of_fresh (fresh entry (List.mem_cons_self ..))).2.2
    unfold FirstMatch.count at later ⊢
    rw [List.map_cons, List.map_cons, List.countP_cons, List.filter_cons, later]
    unfold checkAwaiting
    rw [awaits]
    cases isBranch entry.instruction <;> simp

theorem count_fresh {entries : List BoomFetchBufferEntry} (fresh : ∀ e ∈ entries, e.flags = {}) :
    FirstMatch.count checkAwaiting entries = 0 := by
  refine FirstMatch.count_eq_zero checkAwaiting fun e member => ?_
  unfold checkAwaiting
  rw [fresh e member]
  rfl

/-- `ClockSendBuffered`. -/
theorem Aligned.send (aligned : f.Aligned checked sent fresh) (ports : BoomFetchPorts) :
    ∃ k ≤ fresh.length,
      (f.clockSendBuffered ports).1.Aligned checked (sent ++ (fresh.take k).map .sent)
        (fresh.drop k) ∧
      Sends f ports (f.clockSendBuffered ports).1 (f.clockSendBuffered ports).2.1
        ((fresh.take k).map BoomFetchBufferEntry.instruction) ∧
      (k < fresh.length →
        (f.clockSendBuffered ports).1.available (f.clockSendBuffered ports).2.1 = false) := by
  have split : f.contents = (checked ++ sent) ++ fresh := by
    rw [aligned.contents, List.append_assoc]
  obtain ⟨k, within, rewrites, sends, stops⟩ := clockSendBuffered_sends split
    (by
      intro e member
      rcases List.mem_append.mp member with first | second
      · exact (aligned.checked e first).1
      · exact (aligned.sent e second).1)
    (by
      intro e member
      rw [aligned.fresh e member])
    ports
  rw [List.append_assoc, ← List.append_assoc sent] at rewrites
  have early : ∀ e ∈ fresh.take k, e.flags = {} := fun e member =>
    aligned.fresh e (List.mem_of_mem_take member)
  refine ⟨k, within, aligned.rewrites rewrites aligned.checked ?_ ?_ ?_ ?_, sends, stops⟩
  · intro e member
    rcases List.mem_append.mp member with old | new
    · exact aligned.sent e old
    · obtain ⟨entry, here, rfl⟩ := List.mem_map.mp new
      obtain ⟨sent, unchecked, _⟩ := sent_of_fresh (early entry here)
      exact ⟨sent, unchecked⟩
  · exact fun e member => aligned.fresh e (List.mem_of_mem_drop member)
  · rw [sends.btbConnection.sentResponses]
    exact aligned.unanswered
  · -- Each branch that is sent awaits the response to its query.
    have asked := aligned.asked
    rw [sends.btbConnection.readableRequests, sends.btbConnection.sentRequests, rewrites.contents,
      List.filter_append, List.length_append, length_filter_queries]
    rw [aligned.contents] at asked
    simp only [FirstMatch.count_append, count_sent early, count_fresh aligned.fresh,
      count_fresh fun e member => aligned.fresh e (List.mem_of_mem_drop member)] at asked ⊢
    omega

/-- The loop of `ClockCheckPredictor` stops at the first entry that is sent and not checked. -/
theorem Aligned.first_unchecked (aligned : f.Aligned checked sent fresh) (some : sent ≠ []) :
    f.skipWhile (·.predictorCheck) f.fetchSize 0 = checked.length := by
  obtain ⟨entry, rest, rfl⟩ := List.exists_cons_of_ne_nil some
  have split := aligned.contents
  rw [List.cons_append] at split
  exact skipWhile_split split (fun e member => (aligned.checked e member).2)
    (aligned.sent entry (List.mem_cons_self ..)).2 (Nat.le_of_lt aligned.room)

/-- `ClockCheckPredictor`, with responses to queries for entries that are sent. -/
theorem Aligned.check (aligned : f.Aligned checked sent fresh) (ports : BoomFetchPorts)
    (enough : ports.predictor.readableResponses.length ≤ sent.length) :
    (f.clockCheckPredictor ports).2.1.Aligned
        (checked ++ (sent.take ports.predictor.readableResponses.length).map
          (.setFlags .setPredictorCheck))
        (sent.drop ports.predictor.readableResponses.length) fresh ∧
      SameOwn f (f.clockCheckPredictor ports).2.1 := by
  obtain ⟨_, drained, _⟩ := ports.predictor.drainResponses_eq
  unfold clockCheckPredictor
  rw [drained]
  dsimp only
  rcases none : ports.predictor.readableResponses with _ | ⟨response, responses⟩
  · rw [List.length_nil, List.take_zero, List.drop_zero, List.map_nil, List.append_nil]
    exact ⟨aligned, ⟨rfl, rfl, rfl⟩⟩
  rw [none] at enough
  have some : sent ≠ [] := by
    rintro rfl
    simp at enough
  rw [aligned.first_unchecked some, ← none]
  rw [← none] at enough
  have own := checkPredictor_own ports.predictor.readableResponses checked.length f
  refine ⟨?_, own⟩
  have rewrites := checkPredictor_rewrites ports.predictor.readableResponses checked
    (sent ++ fresh) f aligned.contents (by rw [List.length_append]; omega)
  rw [List.take_append_of_le_length enough, List.drop_append_of_le_length enough,
    ← List.append_assoc] at rewrites
  refine aligned.rewrites rewrites ?_ ?_ aligned.fresh ?_ ?_
  · intro e member
    rcases List.mem_append.mp member with old | new
    · exact aligned.checked e old
    · obtain ⟨entry, here, rfl⟩ := List.mem_map.mp new
      exact ⟨(aligned.sent entry (List.mem_of_mem_take here)).1, rfl⟩
  · exact fun e member => aligned.sent e (List.mem_of_mem_drop member)
  · rw [own.btbConnection]
    exact aligned.unanswered
  · -- An entry that is checked awaits the buffer as before.
    have asked := aligned.asked
    have same : FirstMatch.count checkAwaiting
        ((sent.take ports.predictor.readableResponses.length).map
          (.setFlags .setPredictorCheck)) =
        FirstMatch.count checkAwaiting (sent.take ports.predictor.readableResponses.length) := by
      unfold FirstMatch.count
      rw [List.countP_map]
      refine List.countP_congr fun e _ => ?_
      rw [Function.comp_apply, isSome_checkAwaiting, isSome_checkAwaiting]
      rfl
    have parts := FirstMatch.count_append checkAwaiting
      (sent.take ports.predictor.readableResponses.length)
      (sent.drop ports.predictor.readableResponses.length)
    rw [List.take_append_drop] at parts
    rw [aligned.contents] at asked
    rw [own.btbConnection, rewrites.contents]
    simp only [FirstMatch.count_append, same] at asked ⊢
    omega

/-- The cells it reads. -/
theorem Aligned.predictorAccesses_lt (aligned : f.Aligned checked sent fresh)
    {responses : List PredictorPacket} (enough : responses.length ≤ sent.length) :
    ∀ i ∈ f.predictorAccesses responses, i < f.fetchSize := by
  intro i member
  rcases List.mem_append.mp member with scan | check
  · exact aligned.scanned_last rfl i scan
  · rw [List.mem_range'_1] at check
    have some : sent ≠ [] := by
      rintro rfl
      rw [List.length_nil] at enough
      omega
    rw [aligned.first_unchecked some] at check
    have usage := f.contents_length
    have room := aligned.room
    rw [aligned.contents, List.length_append, List.length_append] at usage
    omega

/-- `ClockCheckRas` has nothing to do with the buffer. -/
theorem Aligned.checkRas (aligned : f.Aligned checked sent fresh) :
    f.clockCheckRas.2.1.Aligned checked sent fresh :=
  ⟨aligned.contents, aligned.checked, aligned.sent, aligned.fresh, aligned.toCheck, aligned.room,
    aligned.last, aligned.unanswered, aligned.asked⟩

/-- `ClockCheckBTB`: some of the responses are for entries that are checked, the others for
entries that are sent. -/
theorem Aligned.checkBTB (aligned : f.Aligned checked sent fresh) :
    ∃ checked' sent', f.clockCheckBTB.2.Aligned checked' sent' fresh ∧
      checked'.length = checked.length ∧ sent'.length = sent.length := by
  have asked := aligned.asked
  have enough : f.queriesFound ≤ FirstMatch.count checkAwaiting f.contents :=
    Nat.le_trans (Nat.le_add_right ..) asked
  obtain ⟨rewrites, _, _, readable, unanswered, _, others⟩ :=
    f.clockCheckBTB_contents aligned.unanswered enough (Nat.le_of_lt aligned.room)
  have left : FirstMatch.count checkAwaiting f.clockCheckBTB.2.contents =
      FirstMatch.count checkAwaiting f.contents - f.queriesFound := by
    rw [rewrites.contents]
    exact FirstMatch.count_iterate checkAwaiting_once _ _
  obtain ⟨a, b, first⟩ := FirstMatch.iterate_append (f := checkAwaiting) f.queriesFound
    checked (sent ++ fresh)
  obtain ⟨c, d, second⟩ := FirstMatch.iterate_append (f := checkAwaiting) b sent fresh
  -- A new entry awaits no response.
  have third : (List.replaceF checkAwaiting)^[d] fresh = fresh := by
    refine Function.iterate_fixed (List.replaceF_of_forall_none fun e member => ?_) d
    unfold checkAwaiting
    rw [aligned.fresh e member]
    rfl
  rw [aligned.contents, first, second, third] at rewrites
  have keeps : ∀ flag : Bool, ∀ e e', checkAwaiting e = some e' →
      e.flags.sentToMemory = true ∧ e.flags.predictorCheck = flag →
        e'.flags.sentToMemory = true ∧ e'.flags.predictorCheck = flag := by
    intro flag e e' checked flags
    rw [(checkAwaiting_some checked).2]
    exact flags
  refine ⟨(List.replaceF checkAwaiting)^[a] checked, (List.replaceF checkAwaiting)^[c] sent,
    aligned.rewrites rewrites ?_ ?_ aligned.fresh unanswered ?_,
    FirstMatch.length_iterate a checked, FirstMatch.length_iterate c sent⟩
  · exact FirstMatch.forall_iterate (keeps true) a aligned.checked
  · exact FirstMatch.forall_iterate (keeps false) c aligned.sent
  · have none : f.clockCheckBTB.2.btbConnection.sentRequests.filter isQuery = [] :=
      List.filter_eq_nil_iff.mpr fun packet member => by
        rw [others packet member]
        exact Bool.false_ne_true
    rw [left, readable, none, List.length_nil]
    unfold queriesFound
    omega

/-- The cells it reads. -/
theorem btbAccesses_lt (responses : List BTBPacket) (f : BoomFetch)
    (enough : responses.length ≤ FirstMatch.count checkAwaiting f.contents)
    (inside : f.fetchBufferUsage ≤ f.fetchSize) :
    ∀ i ∈ btbAccesses responses f, i < f.fetchSize := by
  induction responses generalizing f with
  | nil =>
    intro i member
    cases member
  | cons response responses ih =>
    rw [List.length_cons] at enough
    obtain ⟨entry, member, found⟩ := FirstMatch.exists_of_count checkAwaiting
      (show 0 < FirstMatch.count checkAwaiting f.contents by omega)
    rw [isSome_checkAwaiting] at found
    obtain ⟨front, back, split⟩ := List.append_of_mem member
    intro i read
    rcases List.mem_append.mp read with scan | later
    · have here : front.length < f.fetchBufferUsage := Cells.length_lt_of_split split
      refine scanned_lt (j := front.length) (by omega) ?_ i scan
      rw [Cells.cell_of_split split, found]
      rfl
    · obtain ⟨rewrites, _⟩ := checkBTB_rewrites [response] f
        (by
          rw [List.length_singleton]
          omega)
        inside
      obtain ⟨size, _⟩ := fields_of_same_control rewrites.control
      rw [← size]
      refine ih (BoomFetch.checkBTB [response] f).2 ?_ ?_ i later
      · rw [rewrites.contents, FirstMatch.count_iterate checkAwaiting_once, List.length_singleton]
        omega
      · rw [rewrites.usage, size]
        exact inside

theorem Aligned.btbAccesses_lt (aligned : f.Aligned checked sent fresh) :
    ∀ i ∈ btbAccesses f.clockedBTB.1 f.clockedBTB.2, i < f.fetchSize := by
  have asked := aligned.asked
  obtain ⟨responses, _⟩ := f.clockedBTB_eq aligned.unanswered
  refine BoomFetch.btbAccesses_lt f.clockedBTB.1 f.clockedBTB.2 ?_ (Nat.le_of_lt aligned.room)
  rw [responses]
  exact Nat.le_trans (Nat.le_add_right ..) asked

/-- `ClockUnbuffer`: of the entries that are checked, those before the first that awaits the
buffer leave. -/
theorem Aligned.unbuffer (aligned : f.Aligned checked sent fresh) :
    f.clockUnbuffer.Aligned (checked.dropWhile (leaves f.flagsToCheck)) sent fresh ∧
      f.clockUnbuffer.fetchBufferUsage ≤ f.fetchBufferUsage := by
  obtain ⟨contents', beyond, own⟩ := f.clockUnbuffer_contents
  have shrunk : f.clockUnbuffer.fetchBufferUsage ≤ f.fetchBufferUsage := Nat.sub_le ..
  have room := aligned.room
  -- An entry that is not checked stays, and so does what follows it.
  have stays : (sent ++ fresh).dropWhile (leaves f.flagsToCheck) = sent ++ fresh := by
    have unchecked : ∀ e ∈ sent ++ fresh, leaves f.flagsToCheck e = false := by
      intro e member
      unfold leaves BoomFetchBufferEntryFlags.contains
      rw [aligned.toCheck]
      rcases List.mem_append.mp member with first | second
      · simp [(aligned.sent e first).2]
      · simp [aligned.fresh e second]
    rcases rest : sent ++ fresh with _ | ⟨e, es⟩
    · rfl
    · have first := unchecked e (by rw [rest]; exact List.mem_cons_self ..)
      rw [List.dropWhile_cons_of_neg (by rw [first]; exact Bool.false_ne_true)]
  have kept : f.clockUnbuffer.contents =
      checked.dropWhile (leaves f.flagsToCheck) ++ (sent ++ fresh) := by
    rw [contents', aligned.contents, List.dropWhile_append, stays]
    split
    · rename_i empty
      rw [List.isEmpty_iff.mp empty, List.nil_append]
    · rfl
  have gone : FirstMatch.count checkAwaiting (checked.takeWhile (leaves f.flagsToCheck)) = 0 := by
    refine FirstMatch.count_eq_zero checkAwaiting fun e member => ?_
    have leaving := List.mem_takeWhile_imp member
    unfold leaves at leaving
    rw [Bool.and_eq_true, Bool.not_eq_true'] at leaving
    unfold checkAwaiting
    rw [leaving.2]
    rfl
  have parts := FirstMatch.count_append checkAwaiting
    (checked.takeWhile (leaves f.flagsToCheck)) (checked.dropWhile (leaves f.flagsToCheck))
  rw [List.takeWhile_append_dropWhile] at parts
  refine ⟨⟨kept, ?_, aligned.sent, aligned.fresh, aligned.toCheck, Nat.lt_of_le_of_lt shrunk room,
    ?_, ?_, ?_⟩, shrunk⟩
  · exact fun e member => aligned.checked e ((List.dropWhile_sublist _).subset member)
  · have same := beyond (f.fetchSize - 1) (by omega)
    exact (congrArg BoomFetchBufferEntry.flags same).trans aligned.last
  · rw [own.btbConnection]
    exact aligned.unanswered
  · have asked := aligned.asked
    rw [aligned.contents] at asked
    rw [own.btbConnection, kept]
    simp only [FirstMatch.count_append] at asked ⊢
    omega

/-- The end of a clock that fetches, if the buffer does not fill up. -/
theorem Aligned.fetch (aligned : f.Aligned checked sent fresh) (ports : BoomFetchPorts)
    (room : f.fetchBufferUsage + ports.fetch.readableResponses.length < f.fetchSize) :
    (f.clockFetchAndRequest ports).1.Aligned checked sent
      (fresh ++ ports.fetch.readableResponses.map freshEntry) := by
  obtain ⟨contents', beyond, own, _⟩ := f.clockFetchAndRequest_contents ports
  obtain ⟨size, _, _, _, _, _, toCheck⟩ := fields_of_control (f.clockFetchAndRequest_control ports)
  have received : ∀ e ∈ ports.fetch.readableResponses.map freshEntry, e.flags = {} := by
    intro e member
    obtain ⟨p, _, rfl⟩ := List.mem_map.mp member
    rfl
  have usage := (f.clockFetchAndRequest ports).1.contents_length
  rw [contents', List.length_append, List.length_map, contents_length] at usage
  change _ = f.fetchSize at size
  change _ = f.flagsToCheck at toCheck
  refine ⟨?_, aligned.checked, aligned.sent, ?_, toCheck.trans aligned.toCheck, ?_, ?_, ?_, ?_⟩
  · rw [contents', aligned.contents, List.append_assoc, List.append_assoc]
  · intro e member
    rcases List.mem_append.mp member with old | new
    · exact aligned.fresh e old
    · exact received e new
  · rw [← usage, size]
    exact room
  · rw [size, beyond (f.fetchSize - 1) (by omega)]
    exact aligned.last
  · rw [own.btbConnection]
    exact aligned.unanswered
  · rw [own.btbConnection, contents', FirstMatch.count_append, count_fresh received]
    exact aligned.asked

/-- The cells that `ClockSendBuffered` reads. -/
theorem Aligned.sendAccesses_lt (aligned : f.Aligned checked sent fresh) :
    ∀ i ∈ f.sendAccesses, i < f.fetchSize := by
  intro i member
  rcases List.mem_append.mp member with scan | send
  · exact aligned.scanned_last rfl i scan
  · exact Nat.lt_trans (List.mem_range.mp send) aligned.room

/-- The connection to the predictor after the first five calls. -/
theorem clockCheckPredictor_ports (f : BoomFetch) (ports : BoomFetchPorts) :
    (f.clockCheckPredictor ports).2.2.fetch = ports.fetch ∧
      ports.predictor.Views (f.clockCheckPredictor ports).2.2.predictor
        ports.predictor.sentRequests ports.predictor.readableRequests
        ports.predictor.sentResponses [] := by
  obtain ⟨_, drained, views⟩ := ports.predictor.drainResponses_eq
  unfold clockCheckPredictor
  rw [drained]
  exact ⟨rfl, views⟩

/-- The first five calls. -/
theorem Aligned.buffered (aligned : f.Aligned checked sent fresh) (ports : BoomFetchPorts)
    (enough : ports.predictor.readableResponses.length ≤ sent.length) :
    ∃ (queries : List InstructionPacket) (checked' sent' fresh' : List BoomFetchBufferEntry),
      (f.clockBuffered ports).2.1.Aligned checked' sent' fresh' ∧
      sent'.length + ports.predictor.readableResponses.length = sent.length + queries.length ∧
      ports.predictor.Views (f.clockBuffered ports).2.2.1.predictor
        (ports.predictor.sentRequests ++ queries.map query) ports.predictor.readableRequests
        ports.predictor.sentResponses [] ∧
      (f.clockBuffered ports).2.2.1.fetch = ports.fetch ∧
      (f.clockBuffered ports).2.1.fetchBufferUsage ≤ f.fetchBufferUsage ∧
      ∀ i ∈ f.bufferedAccesses ports, i < f.fetchSize := by
  obtain ⟨k, within, first, sends, _⟩ := aligned.send ports
  have responses := sends.predictor.readableResponses
  have enough' : (f.clockSendBuffered ports).2.1.predictor.readableResponses.length ≤
      (sent ++ (fresh.take k).map BoomFetchBufferEntry.sent).length := by
    rw [responses, List.length_append]
    omega
  obtain ⟨second, _⟩ := first.check (f.clockSendBuffered ports).2.1 enough'
  obtain ⟨fetch, predictor⟩ := clockCheckPredictor_ports (f.clockSendBuffered ports).1
    (f.clockSendBuffered ports).2.1
  obtain ⟨checked', sent', fourth, same, length⟩ := second.checkRas.checkBTB
  obtain ⟨fifth, shrunk⟩ := fourth.unbuffer
  have size := (fields_of_same_control (f.clockSendBuffered_control ports)).1
  have size' := (fields_of_same_control ((f.clockSendBuffered ports).1.clockCheckPredictor_control
    (f.clockSendBuffered ports).2.1)).1
  have usage := aligned.usage
  have usage' := fourth.usage
  rw [List.length_append, List.length_map, List.length_take] at same
  rw [List.length_drop] at length usage'
  have few := enough'
  rw [List.length_append, List.length_map, List.length_take, responses] at same length few
  rw [usage'] at shrunk
  refine ⟨(fresh.take k).map BoomFetchBufferEntry.instruction, _, sent', fresh.drop k, fifth,
    ?_, ?_, fetch.trans sends.fetch, ?_, ?_⟩
  · rw [List.length_map, List.length_take]
    omega
  · have both := sends.predictor.trans predictor
    rw [sends.predictor.sentRequests, sends.predictor.readableRequests,
      sends.predictor.sentResponses] at both
    exact both
  · refine Nat.le_trans shrunk ?_
    omega
  · intro i member
    unfold bufferedAccesses at member
    dsimp only at member
    rcases List.mem_append.mp member with early | btb
    · rcases List.mem_append.mp early with send | predictor
      · exact aligned.sendAccesses_lt i send
      · rw [← size]
        exact first.predictorAccesses_lt enough' i predictor
    · rw [← size, ← size']
      exact second.checkRas.btbAccesses_lt i btb

/-- The penalty and the clock of the requests have nothing to do with the buffer. -/
theorem Aligned.counters (aligned : f.Aligned checked sent fresh)
    (misspredictions currentPenalty fetchClock : Nat) :
    Aligned { f with
      misspredictions
      currentPenalty
      fetchClock } checked sent fresh :=
  ⟨aligned.contents, aligned.checked, aligned.sent, aligned.fresh, aligned.toCheck, aligned.room,
    aligned.last, aligned.unanswered, aligned.asked⟩

/-- A clock stays within the array if it does not fill up the buffer, and only then. -/
theorem Aligned.clock (aligned : f.Aligned checked sent fresh) (ports : BoomFetchPorts)
    (enough : ports.predictor.readableResponses.length ≤ sent.length) :
    ((∀ i ∈ f.accesses ports, i < f.fetchSize) ↔
        (f.clock ports).1.fetchBufferUsage < f.fetchSize) ∧
      (f.clock ports).1.fetchSize = f.fetchSize ∧
      ∃ queries : List InstructionPacket,
        ports.predictor.Views (f.clock ports).2.1.predictor
          (ports.predictor.sentRequests ++ queries.map query) ports.predictor.readableRequests
          ports.predictor.sentResponses [] ∧
        ((f.clock ports).1.fetchBufferUsage < f.fetchSize →
          ∃ checked' sent' fresh', (f.clock ports).1.Aligned checked' sent' fresh' ∧
            sent'.length + ports.predictor.readableResponses.length =
              sent.length + queries.length) := by
  obtain ⟨queries, checked', sent', fresh', aligned', count, predictor, fetch, less, reads⟩ :=
    aligned.buffered ports enough
  have room := aligned.room
  obtain ⟨size, _⟩ := fields_of_same_control (f.clockBuffered_control ports)
  unfold accesses
  dsimp only
  cases early : f.returnsEarly ports with
  | true =>
    obtain ⟨_, _, _, clocked, _⟩ := f.clock_of_early ports early
    rw [if_pos rfl, List.append_nil, clocked]
    generalize f.clockBuffered ports = buffered at aligned' predictor less size ⊢
    exact ⟨iff_of_true reads (Nat.lt_of_le_of_lt less room), size, queries, predictor, fun _ =>
      ⟨checked', sent', fresh', aligned'.counters _ _ _, count⟩⟩
  | false =>
    obtain ⟨paid, same, clocked⟩ := f.clock_of_fetch ports early
    rw [if_neg Bool.false_ne_true, clocked]
    generalize f.clockBuffered ports = buffered at aligned' predictor fetch less size same ⊢
    have counted : paid.Aligned checked' sent' fresh' := by
      rw [same]
      exact aligned'.counters _ _ _
    have usage : paid.fetchBufferUsage = buffered.2.1.fetchBufferUsage := by rw [same]
    have size' : paid.fetchSize = f.fetchSize := by
      rw [same]
      exact size
    obtain ⟨contents', _, _, _, connection⟩ :=
      paid.clockFetchAndRequest_contents buffered.2.2.1
    obtain ⟨size'', _⟩ :=
      fields_of_control (paid.clockFetchAndRequest_control buffered.2.2.1)
    have grown := (paid.clockFetchAndRequest buffered.2.2.1).1.contents_length
    rw [contents', List.length_append, List.length_map, contents_length, usage] at grown
    dsimp only
    rw [← grown, connection]
    refine ⟨?_, size''.trans size', queries, predictor, fun fits => ?_⟩
    · -- The last slot that is written to is the one after all entries.
      constructor
      · intro all
        refine all _ (List.mem_append_right _ ?_)
        exact List.mem_range'_1.mpr ⟨Nat.le_add_right .., by omega⟩
      · intro fits i member
        rcases List.mem_append.mp member with early | late
        · exact reads i early
        · have slot := List.mem_range'_1.mp late
          omega
    · refine ⟨checked', sent', _, counted.fetch buffered.2.2.1 ?_, count⟩
      rw [usage, size']
      exact fits

end Steps

end BoomFetch

end Sinuca3.Source
