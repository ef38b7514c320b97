import Sinuca3.Lib.Cells
import Sinuca3.Lib.FirstMatch
import Sinuca3.Source.StdComponents.BoomFetchControl
import Sinuca3.Source.StdComponents.BoomFetchCycle

/-!
# The buffer of boom fetch as a list

What each part of `Clock` does to the entries in use and to the connections.
-/
namespace Sinuca3.Source
open Lib

/-- The buffer is asked about any branch. -/
def isBranch (instruction : InstructionPacket) : Bool :=
  instruction.staticInfo.branchType ≠ .none

namespace BoomFetchBufferEntry

def setFlags (set : BoomFetchBufferEntryFlags → BoomFetchBufferEntryFlags)
    (entry : BoomFetchBufferEntry) : BoomFetchBufferEntry :=
  { entry with flags := set entry.flags }

/-- An entry once it is sent. -/
def sent (entry : BoomFetchBufferEntry) : BoomFetchBufferEntry :=
  let flags := entry.flags.setSent
  let flags := if BoomFetch.concernsRas entry.instruction then flags.setSentToRas else flags
  { entry with flags := if isBranch entry.instruction then flags.setSentToBTB else flags }

end BoomFetchBufferEntry

namespace BoomFetch

/-- The entries in use. -/
def contents (f : BoomFetch) : List BoomFetchBufferEntry :=
  Cells.used f.fetchBuffer f.fetchBufferUsage

@[simp] theorem contents_length (f : BoomFetch) : f.contents.length = f.fetchBufferUsage :=
  Cells.length_used _ _

def query (instruction : InstructionPacket) : PredictorPacket :=
  { type := .requestQuery, instruction }

/-- Of the cells, at most entries in use are changed. -/
structure Rewrites (f g : BoomFetch) (entries : List BoomFetchBufferEntry) : Prop where
  usage : g.fetchBufferUsage = f.fetchBufferUsage
  contents : g.contents = entries
  beyond : ∀ j, f.fetchBufferUsage ≤ j → g.fetchBuffer j = f.fetchBuffer j
  control : g.control = f.control

theorem Rewrites.refl (f : BoomFetch) : Rewrites f f f.contents :=
  ⟨rfl, rfl, fun _ _ => rfl, rfl⟩

theorem Rewrites.trans {f g h : BoomFetch} {entries entries' : List BoomFetchBufferEntry}
    (first : Rewrites f g entries) (second : Rewrites g h entries') : Rewrites f h entries' where
  usage := second.usage.trans first.usage
  contents := second.contents
  beyond j outside :=
    (second.beyond j (first.usage.symm ▸ outside)).trans (first.beyond j outside)
  control := second.control.trans first.control

theorem setFlags_rewrites {f : BoomFetch} {front back : List BoomFetchBufferEntry}
    {entry : BoomFetchBufferEntry} (split : f.contents = front ++ entry :: back)
    (set : BoomFetchBufferEntryFlags → BoomFetchBufferEntryFlags) :
    Rewrites f (f.setFlags front.length set) (front ++ entry.setFlags set :: back) := by
  have here : f.fetchBuffer front.length = entry := Cells.cell_of_split split
  have inside : front.length < f.fetchBufferUsage := Cells.length_lt_of_split split
  refine ⟨rfl, ?_, fun j outside => ?_, rfl⟩
  · unfold setFlags
    rw [here]
    exact Cells.used_update_of_split split _
  · exact Function.update_of_ne (by omega) _ _

/-- The loops on the flags. -/
theorem skipWhile_eq (f : BoomFetch) (passes : BoomFetchBufferEntryFlags → Bool) (n i : Nat) :
    f.skipWhile passes n i = Cells.skip f.fetchBuffer (fun entry => passes entry.flags) n i := by
  induction n generalizing i with
  | zero => rfl
  | succ n ih => rw [skipWhile, Cells.skip, ih]

section Send

/-- A part of `ClockSendBuffered`: the instructions it sends, and to whom. -/
structure Sends (f : BoomFetch) (ports : BoomFetchPorts) (g : BoomFetch) (ports' : BoomFetchPorts)
    (instructions : List InstructionPacket) : Prop where
  btb : g.btb = f.btb
  fetch : ports'.fetch = ports.fetch
  memory : ports.instructionMemory.Views ports'.instructionMemory
    (ports.instructionMemory.sentRequests ++ instructions)
    ports.instructionMemory.readableRequests ports.instructionMemory.sentResponses
    ports.instructionMemory.readableResponses
  predictor : ports.predictor.Views ports'.predictor
    (ports.predictor.sentRequests ++ instructions.map query) ports.predictor.readableRequests
    ports.predictor.sentResponses ports.predictor.readableResponses
  rasConnection : f.rasConnection.Views g.rasConnection
    (f.rasConnection.sentRequests ++ instructions.filterMap rasPacket)
    f.rasConnection.readableRequests f.rasConnection.sentResponses
    f.rasConnection.readableResponses
  btbConnection : f.btbConnection.Views g.btbConnection
    (f.btbConnection.sentRequests ++
      (instructions.filter isBranch).map fun p => .requestQuery p.staticInfo)
    f.btbConnection.readableRequests f.btbConnection.sentResponses
    f.btbConnection.readableResponses

theorem Sends.refl (f : BoomFetch) (ports : BoomFetchPorts) : Sends f ports f ports [] := by
  constructor <;> first | rfl | (constructor <;> simp)

theorem sendEntry_eq (f : BoomFetch) (ports : BoomFetchPorts) (i : Nat) :
    (f.sendEntry ports i).1 = { f with
        fetchBuffer := Function.update f.fetchBuffer i (f.fetchBuffer i).sent
        rasConnection := match rasPacket (f.fetchBuffer i).instruction with
          | none => f.rasConnection
          | some packet => (f.rasConnection.sendRequest packet).getD f.rasConnection
        btbConnection :=
          if isBranch (f.fetchBuffer i).instruction then
            (f.btbConnection.sendRequest
              (.requestQuery (f.fetchBuffer i).instruction.staticInfo)).getD f.btbConnection
          else f.btbConnection } := by
  cases branch : (f.fetchBuffer i).instruction.staticInfo.branchType <;>
    simp [sendEntry, sentToRas, sentToBTB, rasPacket, setFlags, setEntry, branch, isBranch,
      BoomFetchBufferEntry.sent, concernsRas, BoomFetchBufferEntryFlags.setSentToBTB,
      BoomFetchBufferEntryFlags.setSent, BoomFetchBufferEntryFlags.setSentToRas]

theorem sendEntry_sends {f : BoomFetch} {ports : BoomFetchPorts}
    {front back : List BoomFetchBufferEntry} {entry : BoomFetchBufferEntry}
    (split : f.contents = front ++ entry :: back) (available : f.available ports) :
    Rewrites f (f.sendEntry ports front.length).1 (front ++ entry.sent :: back) ∧
      Sends f ports (f.sendEntry ports front.length).1 (f.sendEntry ports front.length).2.1
        [entry.instruction] := by
  have here : f.fetchBuffer front.length = entry := Cells.cell_of_split split
  have inside : front.length < f.fetchBufferUsage := Cells.length_lt_of_split split
  unfold BoomFetch.available at available
  rw [Bool.and_eq_true, Bool.and_eq_true, Bool.and_eq_true] at available
  obtain ⟨⟨⟨memory, predictor⟩, ras⟩, btb⟩ := available
  refine ⟨⟨?_, ?_, fun j outside => ?_, f.sendEntry_control ports _⟩, ?_, ?_, ?_, ?_, ?_, ?_⟩
  · rw [sendEntry_eq]
  · rw [sendEntry_eq, here]
    exact Cells.used_update_of_split split _
  · rw [sendEntry_eq]
    exact Function.update_of_ne (by omega) _ _
  · rw [sendEntry_eq]
  · rfl
  · obtain ⟨c, sent, views⟩ :=
      ports.instructionMemory.sendRequest_of_available entry.instruction memory
    unfold sendEntry
    dsimp only
    rw [here, sent]
    exact views
  · obtain ⟨c, sent, views⟩ :=
      ports.predictor.sendRequest_of_available (query entry.instruction) predictor
    unfold sendEntry
    dsimp only
    rw [here]
    unfold query at sent views
    rw [sent]
    exact views
  · rw [sendEntry_eq, here]
    dsimp only
    rcases packet : rasPacket entry.instruction with _ | packet'
    · constructor <;> simp [packet]
    · obtain ⟨c, sent, views⟩ := f.rasConnection.sendRequest_of_available packet' ras
      simpa [sent, packet] using views
  · rw [sendEntry_eq, here]
    dsimp only
    by_cases branch : isBranch entry.instruction
    · obtain ⟨c, sent, views⟩ := f.btbConnection.sendRequest_of_available
        (.requestQuery entry.instruction.staticInfo) btb
      simpa [sent, branch] using views
    · constructor <;> simp [branch]

theorem Sends.trans {f g h : BoomFetch} {ports ports' ports'' : BoomFetchPorts}
    {instructions more : List InstructionPacket} (first : Sends f ports g ports' instructions)
    (second : Sends g ports' h ports'' more) : Sends f ports h ports'' (instructions ++ more) where
  btb := second.btb.trans first.btb
  fetch := second.fetch.trans first.fetch
  memory := by
    have early := first.memory
    have both := early.trans second.memory
    rw [early.sentRequests, early.readableRequests, early.sentResponses,
      early.readableResponses, List.append_assoc] at both
    exact both
  predictor := by
    have early := first.predictor
    have both := early.trans second.predictor
    rw [early.sentRequests, early.readableRequests, early.sentResponses,
      early.readableResponses, List.append_assoc, ← List.map_append] at both
    exact both
  rasConnection := by
    have early := first.rasConnection
    have both := early.trans second.rasConnection
    rw [early.sentRequests, early.readableRequests, early.sentResponses,
      early.readableResponses, List.append_assoc, ← List.filterMap_append] at both
    exact both
  btbConnection := by
    have early := first.btbConnection
    have both := early.trans second.btbConnection
    rw [early.sentRequests, early.readableRequests, early.sentResponses,
      early.readableResponses, List.append_assoc, ← List.map_append, ← List.filter_append] at both
    exact both

/-- A loop sends entries as long as all connections are available. -/
theorem sendFrom_sends (front back : List BoomFetchBufferEntry) (f : BoomFetch)
    (ports : BoomFetchPorts) (split : f.contents = front ++ back) :
    ∃ k ≤ back.length,
      Rewrites f (sendFrom back.length front.length f ports).1
        (front ++ ((back.take k).map .sent ++ back.drop k)) ∧
      Sends f ports (sendFrom back.length front.length f ports).1
        (sendFrom back.length front.length f ports).2.1
        ((back.take k).map BoomFetchBufferEntry.instruction) ∧
      (k < back.length → (sendFrom back.length front.length f ports).1.available
        (sendFrom back.length front.length f ports).2.1 = false) := by
  induction back generalizing front f ports with
  | nil =>
    refine ⟨0, Nat.le_refl 0, ?_, Sends.refl f ports, fun less => absurd less (Nat.lt_irrefl 0)⟩
    have same := Rewrites.refl f
    rw [split] at same
    exact same
  | cons entry back ih =>
    rw [List.length_cons, sendFrom]
    by_cases available : f.available ports
    · rw [if_pos available]
      obtain ⟨rewrites, sends⟩ := sendEntry_sends split available
      obtain ⟨k, within, rewrites', sends', stops⟩ := ih (front ++ [entry.sent])
        (f.sendEntry ports front.length).1 (f.sendEntry ports front.length).2.1
        (by rw [rewrites.contents]; simp)
      rw [List.length_append, List.length_singleton] at rewrites' sends' stops
      refine ⟨k + 1, by omega, ?_, ?_, fun less => stops (by omega)⟩
      · have both := rewrites.trans rewrites'
        rw [List.append_assoc] at both
        exact both
      · exact sends.trans sends'
    · rw [if_neg available]
      refine ⟨0, Nat.zero_le _, ?_, Sends.refl f ports, fun _ => Bool.eq_false_iff.mpr available⟩
      have same := Rewrites.refl f
      rw [split] at same
      exact same

/-- Entries that were sent are skipped. -/
theorem clockSendBuffered_sends {f : BoomFetch} {front back : List BoomFetchBufferEntry}
    (split : f.contents = front ++ back) (sent : ∀ e ∈ front, e.flags.sentToMemory = true)
    (unsent : ∀ e ∈ back, e.flags.sentToMemory = false) (ports : BoomFetchPorts) :
    ∃ k ≤ back.length,
      Rewrites f (f.clockSendBuffered ports).1
        (front ++ ((back.take k).map .sent ++ back.drop k)) ∧
      Sends f ports (f.clockSendBuffered ports).1 (f.clockSendBuffered ports).2.1
        ((back.take k).map BoomFetchBufferEntry.instruction) ∧
      (k < back.length →
        (f.clockSendBuffered ports).1.available (f.clockSendBuffered ports).2.1 = false) := by
  have usage : f.fetchBufferUsage = front.length + back.length := by
    rw [← f.contents_length, split, List.length_append]
  have first : f.skipWhile (·.sentToMemory) f.fetchBufferUsage 0 = front.length := by
    have skipped := Cells.skip_used f.fetchBuffer (fun entry => entry.flags.sentToMemory) []
      f.contents (by simp [contents])
    rw [contents_length, List.length_nil, Nat.zero_add, split,
      List.takeWhile_append_of_pos sent] at skipped
    rw [skipWhile_eq, skipped]
    cases back with
    | nil => simp
    | cons e back => simp [unsent e (List.mem_cons_self ..)]
  have count : f.fetchBufferUsage - front.length = back.length := by omega
  unfold clockSendBuffered
  rw [first]
  dsimp only
  rw [count]
  exact sendFrom_sends front back f ports split

end Send

section Check

/-- What belongs to a boom fetch is left alone. -/
structure SameOwn (f g : BoomFetch) : Prop where
  btb : g.btb = f.btb
  btbConnection : g.btbConnection = f.btbConnection
  rasConnection : g.rasConnection = f.rasConnection

theorem checkPredictor_own (responses : List PredictorPacket) (i : Nat) (f : BoomFetch) :
    SameOwn f (checkPredictor responses i f).2 := by
  induction responses generalizing i f with
  | nil => exact ⟨rfl, rfl, rfl⟩
  | cons response responses ih =>
    obtain ⟨btb, btbConnection, rasConnection⟩ := ih (i + 1) (f.setFlags i .setPredictorCheck)
    exact ⟨btb, btbConnection, rasConnection⟩

/-- The responses of the predictor are for one entry each. -/
theorem checkPredictor_rewrites (responses : List PredictorPacket)
    (front back : List BoomFetchBufferEntry) (f : BoomFetch) (split : f.contents = front ++ back)
    (enough : responses.length ≤ back.length) :
    Rewrites f (checkPredictor responses front.length f).2
      (front ++ ((back.take responses.length).map (.setFlags .setPredictorCheck) ++
        back.drop responses.length)) := by
  induction responses generalizing front back f with
  | nil =>
    have same := Rewrites.refl f
    rw [split] at same
    exact same
  | cons response responses ih =>
    cases back with
    | nil => simp at enough
    | cons entry back =>
      have first := setFlags_rewrites split .setPredictorCheck
      have rest := ih (front ++ [entry.setFlags .setPredictorCheck]) back
        (f.setFlags front.length .setPredictorCheck) (by rw [first.contents]; simp)
        (by simpa using enough)
      rw [List.length_append, List.length_singleton, List.append_assoc] at rest
      exact first.trans rest

def isQuery : BTBPacket → Bool
  | .requestQuery _ => true
  | _ => false

theorem length_filter_queries (packets : List InstructionPacket) :
    ((packets.map fun p => BTBPacket.requestQuery p.staticInfo).filter isQuery).length =
      packets.length := by
  rw [List.filter_eq_self.mpr, List.length_map]
  intro packet member
  obtain ⟨p, _, rfl⟩ := List.mem_map.mp member
  rfl

/-- The entry that a response of the buffer is for is the first that awaits one. -/
def checkAwaiting (entry : BoomFetchBufferEntry) : Option BoomFetchBufferEntry :=
  if entry.flags.awaitsBTB then some (entry.setFlags .setBTBCheck) else none

@[simp] theorem isSome_checkAwaiting (entry : BoomFetchBufferEntry) :
    (checkAwaiting entry).isSome = entry.flags.awaitsBTB := by
  unfold checkAwaiting
  split
  · rename_i awaits
    rw [awaits]
    rfl
  · rename_i idle
    exact (Bool.eq_false_iff.mpr idle).symm

theorem checkAwaiting_some {entry entry' : BoomFetchBufferEntry}
    (checked : checkAwaiting entry = some entry') :
    entry.flags.awaitsBTB = true ∧ entry' = entry.setFlags .setBTBCheck := by
  unfold checkAwaiting at checked
  split at checked
  · rename_i awaits
    cases checked
    exact ⟨awaits, rfl⟩
  · cases checked

theorem checkAwaiting_once (entry entry' : BoomFetchBufferEntry)
    (checked : checkAwaiting entry = some entry') : checkAwaiting entry' = none := by
  rw [(checkAwaiting_some checked).2]
  simp [checkAwaiting, BoomFetchBufferEntry.setFlags, BoomFetchBufferEntryFlags.awaitsBTB,
    BoomFetchBufferEntryFlags.setBTBCheck]

/-- A connection to the buffer after its responses are checked: for each there may be a
request, which is no query. -/
structure Updates (c c' : BTBConnection) (responses : Nat) : Prop where
  bufferSize : c'.bufferSize = c.bufferSize
  readableRequests : c'.readableRequests = c.readableRequests
  sentResponses : c'.sentResponses = c.sentResponses
  sentRequests : ∃ updates, c'.sentRequests = c.sentRequests ++ updates ∧
    updates.length ≤ responses ∧ ∀ update ∈ updates, isQuery update = false

theorem Updates.refl (c : BTBConnection) : Updates c c 0 := by
  refine ⟨rfl, rfl, rfl, [], (List.append_nil _).symm, Nat.le_refl 0, ?_⟩
  intro update member
  cases member

theorem Updates.trans {c c' c'' : BTBConnection} {n m : Nat} (first : Updates c c' n)
    (second : Updates c' c'' m) : Updates c c'' (n + m) := by
  obtain ⟨size, readable, responses, updates, sent, few, others⟩ := first
  obtain ⟨size', readable', responses', updates', sent', few', others'⟩ := second
  refine ⟨size'.trans size, readable'.trans readable, responses'.trans responses,
    updates ++ updates', ?_, ?_, ?_⟩
  · rw [sent', sent, List.append_assoc]
  · rw [List.length_append]
    omega
  · intro update member
    rcases List.mem_append.mp member with early | late
    · exact others update early
    · exact others' update late

theorem isQuery_btbRequest (instruction : InstructionPacket) (next : BitVec 32)
    (response : BTBPacket) : isQuery (btbRequest instruction next response) = false := by
  cases response <;> rfl

theorem update_updates (c : BTBConnection) {request : BTBPacket} (other : isQuery request = false) :
    Updates c (if c.isConnectionAvailable then (c.sendRequest request).getD c else c) 1 := by
  split
  · rename_i available
    obtain ⟨c', sent, views⟩ := c.sendRequest_of_available request available
    rw [sent]
    refine ⟨views.bufferSize, views.readableRequests, views.sentResponses, [request],
      views.sentRequests, Nat.le_refl 1, ?_⟩
    intro update member
    rw [List.mem_singleton.mp member]
    exact other
  · obtain ⟨size, readable, responses, updates, sent, _, others⟩ := Updates.refl c
    exact ⟨size, readable, responses, updates, sent, by simp_all, others⟩

/-- A loop stops at the first entry in use that does not pass. -/
theorem skipWhile_split {f : BoomFetch} {front back : List BoomFetchBufferEntry}
    {entry : BoomFetchBufferEntry} {passes : BoomFetchBufferEntryFlags → Bool}
    (split : f.contents = front ++ entry :: back) (skipped : ∀ e ∈ front, passes e.flags = true)
    (stops : passes entry.flags = false) (inside : f.fetchBufferUsage ≤ f.fetchSize) :
    f.skipWhile passes f.fetchSize 0 = front.length := by
  have used := Cells.skip_used f.fetchBuffer (fun e => passes e.flags) [] f.contents
    (by simp [contents])
  rw [contents_length, List.length_nil, Nat.zero_add, split,
    List.takeWhile_append_of_pos skipped] at used
  have here : front.length < f.fetchBufferUsage := Cells.length_lt_of_split split
  have stop : Cells.skip f.fetchBuffer (fun e => passes e.flags) f.fetchBufferUsage 0 =
      front.length := by
    rw [used]
    simp [stops]
  have more := Cells.skip_more f.fetchBuffer (fun e => passes e.flags) f.fetchBufferUsage
    (f.fetchSize - f.fetchBufferUsage) 0
  rw [Nat.add_sub_cancel' inside] at more
  rw [skipWhile_eq, more (by rw [stop]; omega), stop]

/-- That which looks for an entry that awaits a response stops at the first. -/
theorem skipWhile_awaiting {f : BoomFetch} {front back : List BoomFetchBufferEntry}
    {entry : BoomFetchBufferEntry} (split : f.contents = front ++ entry :: back)
    (others : ∀ e ∈ front, checkAwaiting e = none) (awaits : entry.flags.awaitsBTB = true)
    (inside : f.fetchBufferUsage ≤ f.fetchSize) :
    f.skipWhile (!·.awaitsBTB) f.fetchSize 0 = front.length := by
  refine skipWhile_split split ?_ (by rw [awaits]; rfl) inside
  intro e member
  have none := others e member
  unfold checkAwaiting at none
  split at none
  · cases none
  · rename_i idle
    simpa using idle

/-- Each response of the buffer is for the first entry that awaits one. -/
theorem checkBTB_rewrites (responses : List BTBPacket) (f : BoomFetch)
    (enough : responses.length ≤ FirstMatch.count checkAwaiting f.contents)
    (inside : f.fetchBufferUsage ≤ f.fetchSize) :
    Rewrites f (checkBTB responses f).2
        ((List.replaceF checkAwaiting)^[responses.length] f.contents) ∧
      (checkBTB responses f).2.btb = f.btb ∧
      (checkBTB responses f).2.rasConnection = f.rasConnection ∧
      Updates f.btbConnection (checkBTB responses f).2.btbConnection responses.length := by
  induction responses generalizing f with
  | nil => exact ⟨Rewrites.refl f, rfl, rfl, Updates.refl _⟩
  | cons response responses ih =>
    rw [List.length_cons] at enough ⊢
    obtain ⟨awaiting, member, found⟩ := FirstMatch.exists_of_count checkAwaiting
      (show 0 < FirstMatch.count checkAwaiting f.contents by omega)
    obtain ⟨marked, found⟩ := Option.isSome_iff_exists.mp found
    obtain ⟨entry, entry', front, back, others, checked, split, replaced⟩ :=
      List.exists_of_replaceF member found
    have awaits := checkAwaiting_some checked
    have first := setFlags_rewrites split .setBTBCheck
    rw [← awaits.2, ← replaced] at first
    have left : FirstMatch.count checkAwaiting (f.contents.replaceF checkAwaiting) =
        FirstMatch.count checkAwaiting f.contents - 1 :=
      FirstMatch.count_replaceF checkAwaiting_once f.contents
    rw [checkBTB, skipWhile_awaiting split others awaits.1 inside]
    dsimp only
    have one := update_updates (f.setFlags front.length .setBTBCheck).btbConnection
      (isQuery_btbRequest ((f.setFlags front.length .setBTBCheck).fetchBuffer
        front.length).instruction (((f.setFlags front.length .setBTBCheck).fetchBuffer
        front.length).instruction.nextInstruction.setWidth 32) response)
    generalize (if (f.setFlags front.length .setBTBCheck).btbConnection.isConnectionAvailable then _
      else _) = connection at one ⊢
    obtain ⟨rest, btb, ras, updates⟩ := ih
      { f.setFlags front.length .setBTBCheck with btbConnection := connection }
      (by
        change _ ≤ FirstMatch.count checkAwaiting (f.setFlags front.length .setBTBCheck).contents
        rw [first.contents, left]
        omega)
      inside
    refine ⟨?_, btb, ras, ?_⟩
    · have before : Rewrites f
          { f.setFlags front.length .setBTBCheck with btbConnection := connection }
          (f.contents.replaceF checkAwaiting) :=
        ⟨first.usage, first.contents, first.beyond, first.control⟩
      have both := before.trans rest
      rw [Function.iterate_succ_apply, ← first.contents]
      exact both
    · have both := one.trans updates
      rw [Nat.add_comm] at both
      exact both

end Check

section Own

/-- The buffer responds to queries, and to nothing else. -/
theorem length_responsesTo_btb (packets : List BTBPacket) (b : BranchTargetBuffer) :
    (responsesTo BranchTargetBuffer.respond b packets).length = (packets.filter isQuery).length := by
  induction packets generalizing b with
  | nil => rfl
  | cons packet packets ih =>
    rw [responsesTo, List.length_append, ih]
    cases packet <;> simp [BranchTargetBuffer.respond, isQuery, List.filter_cons, Nat.add_comm]

/-- The clock of the buffer: it reads what was sent until its clock before, and what it
responds is received at once. -/
theorem clockedBTB_eq (f : BoomFetch) (idle : f.btbConnection.sentResponses = []) :
    f.clockedBTB.1.length = (f.btbConnection.readableRequests.filter isQuery).length ∧
      f.btbConnection.Views f.clockedBTB.2.btbConnection [] f.btbConnection.sentRequests [] [] := by
  obtain ⟨_, views⟩ := clockAll_single BranchTargetBuffer.respond f.btb f.btbConnection idle
  have result : f.clockedBTB =
      (((BranchTargetBuffer.clock (f.btb, fun _ : Fin 1 => f.btbConnection)).1.2
          0).swapBuffers.drainResponses.1,
        { f with
          btb := (BranchTargetBuffer.clock (f.btb, fun _ : Fin 1 => f.btbConnection)).1.1
          btbConnection := ((BranchTargetBuffer.clock (f.btb,
            fun _ : Fin 1 => f.btbConnection)).1.2 0).swapBuffers.drainResponses.2 }) := rfl
  unfold BranchTargetBuffer.clock at result
  generalize clockAll BranchTargetBuffer.respond (f.btb, fun _ : Fin 1 => f.btbConnection) =
    clocked at views result
  obtain ⟨c, drain, views'⟩ := (clocked.1.2 0).swapBuffers.drainResponses_eq
  rw [result, drain, Connection.readableResponses_swap, views.sentResponses]
  refine ⟨length_responsesTo_btb _ f.btb, ?_⟩
  rw [Connection.sentRequests_swap, Connection.readableRequests_swap, Connection.sentResponses_swap,
    views.sentRequests] at views'
  exact ⟨views'.bufferSize.trans views.bufferSize, views'.sentRequests, views'.readableRequests,
    views'.sentResponses, views'.readableResponses⟩

/-- The queries that the buffer finds in its clock. -/
def queriesFound (f : BoomFetch) : Nat := (f.btbConnection.readableRequests.filter isQuery).length

/-- `ClockCheckBTB`: they are answered, and the answers are for the first entries that await
one. What was sent is readable then, and updates may be sent. -/
theorem clockCheckBTB_contents (f : BoomFetch) (idle : f.btbConnection.sentResponses = [])
    (enough : f.queriesFound ≤ FirstMatch.count checkAwaiting f.contents)
    (inside : f.fetchBufferUsage ≤ f.fetchSize) :
    Rewrites f f.clockCheckBTB.2 ((List.replaceF checkAwaiting)^[f.queriesFound] f.contents) ∧
      f.clockCheckBTB.2.rasConnection = f.rasConnection ∧
      f.clockCheckBTB.2.btbConnection.bufferSize = f.btbConnection.bufferSize ∧
      f.clockCheckBTB.2.btbConnection.readableRequests = f.btbConnection.sentRequests ∧
      f.clockCheckBTB.2.btbConnection.sentResponses = [] ∧
      f.clockCheckBTB.2.btbConnection.sentRequests.length ≤ f.queriesFound ∧
      ∀ update ∈ f.clockCheckBTB.2.btbConnection.sentRequests, isQuery update = false := by
  have result : f.clockCheckBTB.2 = (checkBTB f.clockedBTB.1 f.clockedBTB.2).2 := rfl
  obtain ⟨responses, views⟩ := f.clockedBTB_eq idle
  change _ = f.queriesFound at responses
  rw [result]
  obtain ⟨rewrites, _, ras, size, readable, unanswered, updates, sent, few, others⟩ :=
    checkBTB_rewrites f.clockedBTB.1 f.clockedBTB.2 (by rw [responses]; exact enough) inside
  rw [views.sentRequests, List.nil_append] at sent
  have before : Rewrites f f.clockedBTB.2 f.contents := ⟨rfl, rfl, fun _ _ => rfl, rfl⟩
  have both := before.trans rewrites
  rw [responses] at both few
  refine ⟨both, ras, size.trans views.bufferSize, readable.trans views.readableRequests,
    unanswered.trans views.sentResponses, ?_, ?_⟩
  · rw [sent]
    exact few
  · rw [sent]
    exact others

theorem clockedRas_views (f : BoomFetch) (idle : f.rasConnection.sentResponses = []) :
    f.clockedRas.1.length ≤ f.rasConnection.readableRequests.length ∧
      f.rasConnection.Views f.clockedRas.2.rasConnection [] f.rasConnection.sentRequests [] [] := by
  obtain ⟨c, connection, _, views⟩ := clockOnce_single Ras.respond f.ras f.rasConnection idle
  obtain ⟨c', drained, views'⟩ := c.swapBuffers.drainResponses_eq
  have result : f.clockedRas =
      ((Ras.clock (f.ras, fun _ : Fin 1 => f.rasConnection)).1.2 0 |>.swapBuffers.drainResponses.1,
        { f with
          ras := (Ras.clock (f.ras, fun _ : Fin 1 => f.rasConnection)).1.1
          rasConnection := ((Ras.clock (f.ras,
            fun _ : Fin 1 => f.rasConnection)).1.2 0).swapBuffers.drainResponses.2 }) := rfl
  unfold Ras.clock at result
  rw [connection, drained, Connection.readableResponses_swap, views.sentResponses] at result
  rw [result]
  refine ⟨?_, ?_⟩
  · dsimp only
    have few := List.length_filterMap_le (fun request => (f.ras.respond request).2)
      (f.rasConnection.readableRequests.take 1)
    have first := List.length_take_le' 1 f.rasConnection.readableRequests
    omega
  · rw [Connection.sentRequests_swap, Connection.readableRequests_swap,
      Connection.sentResponses_swap, views.sentRequests] at views'
    exact ⟨views'.bufferSize.trans views.bufferSize, views'.sentRequests, views'.readableRequests,
      views'.sentResponses, views'.readableResponses⟩

end Own

section Move

/-- `ClockUnbuffer` is done with the entry. -/
def leaves (toCheck : BoomFetchBufferEntryFlags) (entry : BoomFetchBufferEntry) : Bool :=
  entry.flags.contains toCheck && !entry.flags.awaitsBTB

/-- The entries leave up to the first that it is not done with. -/
theorem clockUnbuffer_contents (f : BoomFetch) :
    f.clockUnbuffer.contents = f.contents.dropWhile (leaves f.flagsToCheck) ∧
      (∀ j, f.clockUnbuffer.fetchBufferUsage ≤ j →
        f.clockUnbuffer.fetchBuffer j = f.fetchBuffer j) ∧
      SameOwn f f.clockUnbuffer := by
  have skipped := Cells.skip_used f.fetchBuffer (leaves f.flagsToCheck) [] f.contents
    (by simp [contents])
  rw [contents_length, List.length_nil, Nat.zero_add] at skipped
  have stop : f.skipWhile (fun flags => flags.contains f.flagsToCheck && !flags.awaitsBTB)
      f.fetchBufferUsage 0 = (f.contents.takeWhile (leaves f.flagsToCheck)).length := by
    rw [skipWhile_eq]
    exact skipped
  have within : (f.contents.takeWhile (leaves f.flagsToCheck)).length ≤ f.fetchBufferUsage := by
    rw [← f.contents_length]
    exact (List.takeWhile_prefix _).length_le
  unfold clockUnbuffer
  rw [stop]
  refine ⟨?_, fun j outside => ?_, rfl, rfl, rfl⟩
  · have parts := List.takeWhile_append_dropWhile (p := leaves f.flagsToCheck) (l := f.contents)
    refine (Cells.used_shift f.fetchBuffer within).trans ?_
    calc f.contents.drop (f.contents.takeWhile (leaves f.flagsToCheck)).length
      _ = (f.contents.takeWhile (leaves f.flagsToCheck) ++
            f.contents.dropWhile (leaves f.flagsToCheck)).drop
          (f.contents.takeWhile (leaves f.flagsToCheck)).length := by rw [parts]
      _ = f.contents.dropWhile (leaves f.flagsToCheck) := List.drop_left
  · exact if_neg (Nat.not_lt.mpr outside)

def freshEntry (instruction : InstructionPacket) : BoomFetchBufferEntry := { instruction }

/-- The cells past those in use keep their flags when instructions are received: the last
read leaves the flags of its slot. -/
theorem receive_contents (responses : List InstructionPacket) (f : BoomFetch) :
    (receive responses f).1.contents = f.contents ++ responses.map freshEntry ∧
      (∀ j, f.fetchBufferUsage + responses.length ≤ j →
        ((receive responses f).1.fetchBuffer j).flags = (f.fetchBuffer j).flags) ∧
      SameOwn f (receive responses f).1 := by
  induction responses generalizing f with
  | nil =>
    refine ⟨?_, fun j outside => ?_, rfl, rfl, rfl⟩
    · have same : (receive [] f).1.contents =
          f.contents.set f.fetchBufferUsage
            { f.fetchBuffer f.fetchBufferUsage with instruction := {} } :=
        Cells.used_update f.fetchBuffer f.fetchBufferUsage f.fetchBufferUsage _
      rw [same, List.set_eq_of_length_le (by simp), List.map_nil, List.append_nil]
    · unfold receive setEntry
      dsimp only
      by_cases here : j = f.fetchBufferUsage
      · rw [here, Function.update_self]
      · rw [Function.update_of_ne here]
  | cons response responses ih =>
    let g : BoomFetch := { f.setEntry f.fetchBufferUsage { instruction := response, flags := {} } with
      fetchBufferUsage := f.fetchBufferUsage + 1
      fetchedInstructions := f.fetchedInstructions + 1 }
    obtain ⟨contents', beyond, btb, btbConnection, rasConnection⟩ := ih g
    have grown : g.contents = f.contents ++ [freshEntry response] := by
      have more := Cells.used_succ g.fetchBuffer f.fetchBufferUsage
      have old : Cells.used g.fetchBuffer f.fetchBufferUsage = f.contents :=
        Cells.used_congr fun i inside => Function.update_of_ne (Nat.ne_of_lt inside) _ _
      have new : g.fetchBuffer f.fetchBufferUsage = freshEntry response :=
        Function.update_self ..
      rw [old, new] at more
      exact more
    refine ⟨?_, fun j outside => ?_, btb, btbConnection, rasConnection⟩
    · refine contents'.trans ?_
      rw [grown]
      simp
    · rw [List.length_cons] at outside
      refine (beyond j (by change f.fetchBufferUsage + 1 + _ ≤ j; omega)).trans ?_
      have elsewhere : g.fetchBuffer j = f.fetchBuffer j :=
        Function.update_of_ne (by omega) _ _
      rw [elsewhere]

/-- The end of a clock that fetches. -/
theorem clockFetchAndRequest_contents (f : BoomFetch) (ports : BoomFetchPorts) :
    (f.clockFetchAndRequest ports).1.contents =
        f.contents ++ ports.fetch.readableResponses.map freshEntry ∧
      (∀ j, f.fetchBufferUsage + ports.fetch.readableResponses.length ≤ j →
        ((f.clockFetchAndRequest ports).1.fetchBuffer j).flags = (f.fetchBuffer j).flags) ∧
      SameOwn f (f.clockFetchAndRequest ports).1 ∧
      (f.clockFetchAndRequest ports).2.1.instructionMemory = ports.instructionMemory ∧
      (f.clockFetchAndRequest ports).2.1.predictor = ports.predictor := by
  obtain ⟨drained, drain, _⟩ := ports.fetch.drainResponses_eq
  obtain ⟨contents', beyond, own⟩ := receive_contents ports.fetch.readableResponses f
  unfold clockFetchAndRequest clockFetch
  rw [drain]
  dsimp only
  split
  all_goals exact ⟨contents', beyond, ⟨own.btb, own.btbConnection, own.rasConnection⟩, rfl, rfl⟩

/-- It requests what it leaves of the buffer, if it is time to. -/
theorem clockFetchAndRequest_fetch (f : BoomFetch) (ports : BoomFetchPorts)
    (unsent : ports.fetch.sentRequests = []) :
    ports.fetch.Views (f.clockFetchAndRequest ports).2.1.fetch
      (if f.fetchClock % f.fetchInterval = 0 then [(f.clockFetchAndRequest ports).1.request] else [])
      ports.fetch.readableRequests ports.fetch.sentResponses [] := by
  obtain ⟨drained, drain, views⟩ := ports.fetch.drainResponses_eq
  obtain ⟨_, interval, clock, _⟩ :=
    fields_of_same_control (receive_control ports.fetch.readableResponses f)
  rw [unsent] at views
  unfold clockFetchAndRequest clockFetch
  rw [drain]
  dsimp only
  generalize receive ports.fetch.readableResponses f = received at interval clock ⊢
  rw [← interval, ← clock]
  split
  · -- The request buffer was empty, so the request is accepted.
    unfold clockRequestFetch
    rcases drained.sendRequest_eq received.1.request with ⟨_, bounded, full⟩ | ⟨c, stored, sent, _⟩
    · rw [views.sentRequests, List.length_nil] at full
      omega
    · have both := views.trans sent
      rw [views.sentRequests, views.readableRequests, views.sentResponses,
        views.readableResponses] at both
      rw [stored]
      exact both
  · exact views

end Move

end BoomFetch

end Sinuca3.Source
