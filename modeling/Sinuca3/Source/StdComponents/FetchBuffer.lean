import Sinuca3.Source.StdComponents.Fetcher

/-!
# The fetch buffer as a list

What each part of `Fetcher::Clock` does to the entries in use, to its connection
and to everything else (`control`), and the events it gives rise to.
-/
namespace Sinuca3.Source

namespace Fetcher

/-- All of a fetcher but its buffer and its statistics. -/
def control (f : Fetcher) : Fetcher :=
  { f with fetchBuffer := fun _ => {}, fetchBufferUsage := 0, misspredictions := 0,
           fetchedInstructions := 0 }

/-- The fields that a control determines. -/
theorem fields_of_control {f g : Fetcher} (same : f.control = g) :
    f.fetchSize = g.fetchSize ∧ f.fetchInterval = g.fetchInterval ∧
      f.fetchClock = g.fetchClock ∧ f.misspredictPenalty = g.misspredictPenalty ∧
      f.currentPenalty = g.currentPenalty ∧ f.flagsToCheck = g.flagsToCheck := by
  subst same
  exact ⟨rfl, rfl, rfl, rfl, rfl, rfl⟩

/-- The same for two fetchers with one control. -/
theorem fields_of_same_control {f g : Fetcher} (same : f.control = g.control) :
    f.fetchSize = g.fetchSize ∧ f.fetchInterval = g.fetchInterval ∧
      f.fetchClock = g.fetchClock ∧ f.misspredictPenalty = g.misspredictPenalty ∧
      f.currentPenalty = g.currentPenalty ∧ f.flagsToCheck = g.flagsToCheck := by
  have fields := fields_of_control same
  exact fields

@[simp] theorem contents_length (f : Fetcher) : f.contents.length = f.fetchBufferUsage := by
  simp [contents]

theorem contents_getElem? (f : Fetcher) {i : Nat} (used : i < f.fetchBufferUsage) :
    f.contents[i]? = some (f.fetchBuffer i) := by
  simp [contents, used]

theorem contents_setEntry (f : Fetcher) (i : Nat) (entry : FetchBufferEntry) :
    (f.setEntry i entry).contents = f.contents.set i entry := by
  apply List.ext_getElem?
  intro k
  by_cases used : k < f.fetchBufferUsage
  · rw [contents_getElem? _ (by exact used), List.getElem?_set]
    by_cases here : i = k
    · subst here
      simp [setEntry, used]
    · rw [if_neg here, contents_getElem? f used]
      simp [setEntry, Function.update_of_ne (Ne.symm here)]
  · rw [List.getElem?_eq_none (by simpa [setEntry] using used),
      List.getElem?_eq_none (by simpa using used)]

/-- The entry at a split of the buffer. -/
theorem fetchBuffer_of_split {f : Fetcher} {front : List FetchBufferEntry}
    {entry : FetchBufferEntry} {back : List FetchBufferEntry}
    (split : f.contents = front ++ entry :: back) : f.fetchBuffer front.length = entry := by
  have used : front.length < f.fetchBufferUsage := by
    rw [← contents_length, split]
    simp
  have here := contents_getElem? f used
  rw [split] at here
  simpa using here.symm

/-- A write to the entry at a split of the buffer. -/
theorem contents_setFlags {f : Fetcher} {front : List FetchBufferEntry}
    {entry : FetchBufferEntry} {back : List FetchBufferEntry}
    (split : f.contents = front ++ entry :: back)
    (set : FetchBufferEntryFlags → FetchBufferEntryFlags) :
    (f.setFlags front.length set).contents = front ++ [entry.setFlags set] ++ back := by
  unfold setFlags
  rw [contents_setEntry, fetchBuffer_of_split split, split]
  simp

/-- The index at which a skipping loop stops. -/
theorem skipWhile_eq (f : Fetcher) (passes : FetchBufferEntryFlags → Bool)
    (front back : List FetchBufferEntry) (split : f.contents = front ++ back) :
    f.skipWhile passes back.length front.length =
      front.length + (back.takeWhile fun entry => passes entry.flags).length := by
  induction back generalizing front with
  | nil => rfl
  | cons entry back ih =>
    rw [List.length_cons, skipWhile, fetchBuffer_of_split split, List.takeWhile_cons]
    split
    · have later := ih (front ++ [entry]) (by rw [split]; simp)
      rw [List.length_append, List.length_singleton] at later
      rw [later, List.length_cons]
      omega
    · rfl

theorem skipWhile_all (f : Fetcher) (passes : FetchBufferEntryFlags → Bool) :
    f.skipWhile passes f.fetchBufferUsage 0 =
      (f.contents.takeWhile fun entry => passes entry.flags).length := by
  have whole := f.skipWhile_eq passes [] f.contents rfl
  rw [contents_length, List.length_nil, Nat.zero_add] at whole
  exact whole

section Send

variable {Req Resp : Type} (message : InstructionPacket → Req)
  (set : FetchBufferEntryFlags → FetchBufferEntryFlags)
  (event : InstructionPacket → FetcherEvent)

/-- A sending loop sends, marks and reports as many entries as the connection takes. -/
theorem sendFrom_eq (front back : List FetchBufferEntry) (f : Fetcher) (c : Connection Req Resp)
    (split : f.contents = front ++ back) :
    ∃ f' c',
      sendFrom message set event back.length front.length f c =
        (f', c', (back.take (c.takes back.length)).map fun entry => event entry.instruction) ∧
      f'.contents = front ++ (back.take (c.takes back.length)).map (·.setFlags set) ++
        back.drop (c.takes back.length) ∧
      f'.control = f.control ∧
      c.Views c' (c.sentRequests ++
          (back.take (c.takes back.length)).map fun entry => message entry.instruction)
        c.readableRequests c.sentResponses c.readableResponses := by
  induction back generalizing front f c with
  | nil =>
    refine ⟨f, c, ?_, ?_, rfl, ?_⟩
    · rw [List.take_nil]
      rfl
    · simpa using split
    · constructor <;> simp
  | cons entry back ih =>
    rw [List.length_cons, sendFrom, fetchBuffer_of_split split]
    rcases c.sendRequest_eq (message entry.instruction) with
      ⟨refused, bounded, full⟩ | ⟨c', stored, views, room⟩
    · rw [refused, Connection.takes_eq_zero bounded full]
      refine ⟨f, c, rfl, ?_, rfl, ?_⟩
      · simpa using split
      · constructor <;> simp
    · have split' := contents_setFlags split set
      obtain ⟨f', c'', sent, contents', control', views'⟩ :=
        ih (front ++ [entry.setFlags set]) (f.setFlags front.length set) c' split'
      rw [List.length_append, List.length_singleton] at sent
      rw [stored, Connection.takes_succ room views]
      refine ⟨f', c'', ?_, ?_, control', ?_⟩
      · dsimp only
        rw [sent]
        rfl
      · rw [contents']
        simp
      · have both := views.trans views'
        rw [views.sentRequests, views.readableRequests, views.sentResponses,
          views.readableResponses] at both
        simpa using both

/-- Sending starts at the first entry that was not sent. -/
theorem sendUnsent_eq (isSent : FetchBufferEntryFlags → Bool) (f : Fetcher)
    (c : Connection Req Resp) {front back : List FetchBufferEntry}
    (sent : f.contents.takeWhile (fun entry => isSent entry.flags) = front)
    (unsent : f.contents.dropWhile (fun entry => isSent entry.flags) = back) :
    ∃ f' c',
      sendUnsent message set event isSent f c =
        (f', c', (back.take (c.takes back.length)).map fun entry => event entry.instruction) ∧
      f'.contents = front ++ (back.take (c.takes back.length)).map (·.setFlags set) ++
        back.drop (c.takes back.length) ∧
      f'.control = f.control ∧
      c.Views c' (c.sentRequests ++
          (back.take (c.takes back.length)).map fun entry => message entry.instruction)
        c.readableRequests c.sentResponses c.readableResponses := by
  have split : f.contents = front ++ back := by
    rw [← sent, ← unsent, List.takeWhile_append_dropWhile]
  have left : f.fetchBufferUsage - front.length = back.length := by
    rw [← contents_length, split, List.length_append]
    omega
  unfold sendUnsent
  rw [skipWhile_all, sent]
  dsimp only
  rw [left]
  exact sendFrom_eq message set event front back f c split

end Send

/-- The events of `checkResponses`. -/
def attributions : Nat → List InstructionPacket → List PredictorPacket → List FetcherEvent
  | i, instruction :: instructions, response :: responses =>
    .attributed i instruction response :: attributions (i + 1) instructions responses
  | _, _, _ => []

/-- Each response goes to the next entry. -/
theorem checkResponses_eq (responses : List PredictorPacket) (front back : List FetchBufferEntry)
    (f : Fetcher) (split : f.contents = front ++ back)
    (enough : responses.length ≤ back.length) :
    ∃ result f',
      checkResponses responses front.length f =
        (result, f', attributions front.length (back.map (·.instruction)) responses) ∧
      f'.contents = front ++ (back.take responses.length).map (·.setFlags .setPredicted) ++
        back.drop responses.length ∧
      f'.control = f.control := by
  induction responses generalizing front back f with
  | nil =>
    refine ⟨false, f, ?_, ?_, rfl⟩
    · cases back <;> rfl
    · simpa using split
  | cons response responses ih =>
    cases back with
    | nil => simp at enough
    | cons entry back =>
      obtain ⟨result, f', checked, contents', control'⟩ := ih (front ++ [entry.setFlags .setPredicted])
        back (f.setFlags front.length .setPredicted) (contents_setFlags split _)
        (by simpa using enough)
      rw [List.length_append, List.length_singleton] at checked
      unfold checkResponses
      rw [fetchBuffer_of_split split]
      dsimp only
      rw [checked]
      refine ⟨_, f', rfl, ?_, control'⟩
      rw [contents']
      simp

/-- The entries with all flags to check leave, up to the first without. -/
theorem clockUnbuffer_eq (f : Fetcher) {front back : List FetchBufferEntry}
    (done : f.contents.takeWhile (fun entry => entry.flags.contains f.flagsToCheck) = front)
    (kept : f.contents.dropWhile (fun entry => entry.flags.contains f.flagsToCheck) = back) :
    ∃ f',
      f.clockUnbuffer = (f', front.map .unbuffered) ∧ f'.contents = back ∧
      f'.control = f.control := by
  have split : f.contents = front ++ back := by
    rw [← done, ← kept, List.takeWhile_append_dropWhile]
  have usage : f.fetchBufferUsage = front.length + back.length := by
    rw [← contents_length, split, List.length_append]
  have cells : ∀ k, k < front.length + back.length →
      f.contents[k]? = some (f.fetchBuffer k) := fun k used =>
    contents_getElem? f (by omega)
  unfold clockUnbuffer
  rw [skipWhile_all, done]
  refine ⟨_, Prod.ext rfl ?_, ?_, rfl⟩
  · apply List.ext_getElem?
    intro k
    by_cases inside : k < front.length
    · have cell := cells k (by omega)
      rw [split, List.getElem?_append_left inside] at cell
      rw [List.getElem?_map, List.getElem?_map, List.getElem?_range inside, cell]
      rfl
    · simp [inside]
  · apply List.ext_getElem?
    intro k
    by_cases inside : k < back.length
    · have cell := cells (front.length + k) (by omega)
      rw [split, List.getElem?_append_right (by omega), Nat.add_sub_cancel_left] at cell
      rw [contents_getElem? _ (by dsimp only; omega), cell]
      dsimp only
      rw [if_pos (by omega)]
    · rw [List.getElem?_eq_none (by simp [usage]; omega), List.getElem?_eq_none (by omega)]

/-- An instruction as `ClockFetch` buffers it. -/
def freshEntry (instruction : InstructionPacket) : FetchBufferEntry :=
  { instruction, flags := {} }

/-- The events of `receive`. -/
def receptions : Nat → List InstructionPacket → List FetcherEvent
  | slot, [] => [.received slot none]
  | slot, response :: responses =>
    .received slot (some response) :: receptions (slot + 1) responses

/-- The responses go to the slots after the entries in use. -/
theorem receive_eq (responses : List InstructionPacket) (f : Fetcher) :
    ∃ f', receive responses f = (f', receptions f.fetchBufferUsage responses) ∧
      f'.contents = f.contents ++ responses.map freshEntry ∧ f'.control = f.control := by
  induction responses generalizing f with
  | nil =>
    refine ⟨_, rfl, ?_, rfl⟩
    rw [contents_setEntry, List.set_eq_of_length_le (by simp)]
    simp
  | cons response responses ih =>
    obtain ⟨f', later, contents', control'⟩ := ih
      { f.setEntry f.fetchBufferUsage (freshEntry response) with
        fetchBufferUsage := f.fetchBufferUsage + 1
        fetchedInstructions := f.fetchedInstructions + 1 }
    unfold receive
    refine ⟨f', ?_, ?_, control'⟩
    · dsimp only
      rw [show ({ instruction := response, flags := {} } : FetchBufferEntry) =
        freshEntry response from rfl, later]
      rfl
    · have older := f.contents_setEntry f.fetchBufferUsage (freshEntry response)
      rw [List.set_eq_of_length_le (by simp)] at older
      have grown : Fetcher.contents
          { f.setEntry f.fetchBufferUsage (freshEntry response) with
            fetchBufferUsage := f.fetchBufferUsage + 1
            fetchedInstructions := f.fetchedInstructions + 1 } =
          f.contents ++ [freshEntry response] := by
        rw [← older]
        simp [contents, setEntry, List.range_succ]
      rw [contents', grown]
      simp

/-- The instructions appended to the buffer. -/
def appended (log : List FetcherEvent) : List InstructionPacket :=
  log.filterMap fun
    | .received _ response => response
    | _ => none

/-- The slots passed to `ReceiveResponse`. -/
def slots (log : List FetcherEvent) : List Nat :=
  log.filterMap fun
    | .received slot _ => some slot
    | _ => none

theorem appended_append (log more : List FetcherEvent) :
    appended (log ++ more) = appended log ++ appended more :=
  List.filterMap_append

theorem slots_append (log more : List FetcherEvent) :
    slots (log ++ more) = slots log ++ slots more :=
  List.filterMap_append

theorem appended_receptions (slot : Nat) (responses : List InstructionPacket) :
    appended (receptions slot responses) = responses := by
  induction responses generalizing slot with
  | nil => rfl
  | cons response responses ih => simpa [appended, receptions] using ih (slot + 1)

/-- The slots of a loop of reads are those after the entries in use, and one more. -/
theorem slots_receptions (slot : Nat) (responses : List InstructionPacket) :
    slots (receptions slot responses) = List.range' slot (responses.length + 1) := by
  induction responses generalizing slot with
  | nil => rfl
  | cons response responses ih =>
    rw [List.length_cons, List.range'_succ, ← ih (slot + 1)]
    rfl

/-- The events of the first three calls put nothing in the buffer. -/
def Receives : FetcherEvent → Prop
  | .received _ _ => True
  | _ => False

theorem appended_slots_of_quiet {log : List FetcherEvent} (quiet : ∀ e ∈ log, ¬ Receives e) :
    appended log = [] ∧ slots log = [] := by
  constructor <;>
  · apply List.filterMap_eq_nil_iff.mpr
    intro e member
    cases e with
    | received => exact absurd trivial (quiet _ member)
    | _ => rfl

theorem sendUnsent_frame {Req Resp : Type} (message : InstructionPacket → Req)
    (set : FetchBufferEntryFlags → FetchBufferEntryFlags)
    (event : InstructionPacket → FetcherEvent) (quiet : ∀ p, ¬ Receives (event p))
    (isSent : FetchBufferEntryFlags → Bool) (f : Fetcher) (c : Connection Req Resp) :
    (sendUnsent message set event isSent f c).1.control = f.control ∧
      ∀ e ∈ (sendUnsent message set event isSent f c).2.2, ¬ Receives e := by
  obtain ⟨f', c', sent, _, control', _⟩ := sendUnsent_eq message set event isSent f c rfl rfl
  rw [sent]
  constructor
  · exact control'
  · intro e member
    obtain ⟨entry, _, rfl⟩ := List.mem_map.mp member
    exact quiet entry.instruction

theorem clockSendBuffered_frame (f : Fetcher) (ports : FetcherPorts) :
    (f.clockSendBuffered ports).1.control = f.control ∧
      (f.clockSendBuffered ports).2.1.fetch = ports.fetch ∧
      ∀ e ∈ (f.clockSendBuffered ports).2.2, ¬ Receives e := by
  have memory := sendUnsent_frame id .setSentToMemory .sentToMemory (fun _ => id)
    (·.sentToMemory) f ports.instructionMemory
  unfold clockSendBuffered
  split
  · exact ⟨memory.1, rfl, memory.2⟩
  · rename_i c _
    have predictor := sendUnsent_frame query .setSentToPredictor .sentToPredictor (fun _ => id)
      (·.sentToPredictor) (f.sendToMemory ports.instructionMemory).1 c
    refine ⟨predictor.1.trans memory.1, rfl, ?_⟩
    intro e member
    rcases List.mem_append.mp member with first | second
    · exact memory.2 e first
    · exact predictor.2 e second

theorem checkResponses_frame (responses : List PredictorPacket) (i : Nat) (f : Fetcher) :
    (checkResponses responses i f).2.1.control = f.control ∧
      ∀ e ∈ (checkResponses responses i f).2.2, ¬ Receives e := by
  induction responses generalizing i f with
  | nil =>
    refine ⟨rfl, ?_⟩
    intro e member
    cases member
  | cons response responses ih =>
    obtain ⟨control', quiet⟩ := ih (i + 1) (f.setFlags i .setPredicted)
    refine ⟨control', ?_⟩
    intro e member
    rcases List.mem_cons.mp member with rfl | later
    · exact id
    · exact quiet e later

theorem clockCheckPredictor_frame (f : Fetcher) (ports : FetcherPorts) :
    (f.clockCheckPredictor ports).2.1.control = f.control ∧
      (f.clockCheckPredictor ports).2.2.1.fetch = ports.fetch ∧
      ∀ e ∈ (f.clockCheckPredictor ports).2.2.2, ¬ Receives e := by
  have none : ∀ e ∈ ([] : List FetcherEvent), ¬ Receives e := by
    intro e member
    cases member
  unfold clockCheckPredictor
  split
  · exact ⟨rfl, rfl, none⟩
  · dsimp only
    split
    · exact ⟨rfl, rfl, none⟩
    · obtain ⟨control', quiet⟩ := checkResponses_frame _ 0 f
      exact ⟨control', rfl, quiet⟩

/-- The first three calls keep the control and the fetch connection, and put nothing
in the buffer. -/
theorem clockBuffered_frame (f : Fetcher) (ports : FetcherPorts) :
    (f.clockBuffered ports).2.1.control = f.control ∧
      (f.clockBuffered ports).2.2.1.fetch = ports.fetch ∧
      ∀ e ∈ (f.clockBuffered ports).2.2.2, ¬ Receives e := by
  have sent := f.clockSendBuffered_frame ports
  have checked := (f.clockSendBuffered ports).1.clockCheckPredictor_frame
    (f.clockSendBuffered ports).2.1
  obtain ⟨f', unbuffered, _, control'⟩ := clockUnbuffer_eq
    ((f.clockSendBuffered ports).1.clockCheckPredictor (f.clockSendBuffered ports).2.1).2.1 rfl rfl
  unfold clockBuffered
  dsimp only
  rw [unbuffered]
  refine ⟨control'.trans (checked.1.trans sent.1), checked.2.1.trans sent.2.1, ?_⟩
  intro e member
  rcases List.mem_append.mp member with earlier | left
  · rcases List.mem_append.mp earlier with first | second
    · exact sent.2.2 e first
    · exact checked.2.2 e second
  · obtain ⟨entry, _, rfl⟩ := List.mem_map.mp left
    exact id

/-- They do not look at the fetch connection either. -/
theorem clockBuffered_fetch (f : Fetcher) (ports : FetcherPorts) (c : FetchConnection) :
    f.clockBuffered { ports with fetch := c } =
      ((f.clockBuffered ports).1, (f.clockBuffered ports).2.1,
        { (f.clockBuffered ports).2.2.1 with fetch := c }, (f.clockBuffered ports).2.2.2) := by
  obtain ⟨fetch, memory, predictor⟩ := ports
  cases predictor with
  | none => rfl
  | some p =>
    unfold clockBuffered clockSendBuffered clockCheckPredictor
    dsimp only
    split <;> rfl

/-- Setting flags leaves the instructions alone. -/
theorem setFlags_instruction (f : Fetcher) (i : Nat)
    (set : FetchBufferEntryFlags → FetchBufferEntryFlags) (k : Nat) :
    ((f.setFlags i set).fetchBuffer k).instruction = (f.fetchBuffer k).instruction := by
  unfold setFlags setEntry
  dsimp only
  by_cases here : k = i
  · subst here
    rw [Function.update_self]
    rfl
  · rw [Function.update_of_ne here]

theorem sendFrom_instruction {Req Resp : Type} (message : InstructionPacket → Req)
    (set : FetchBufferEntryFlags → FetchBufferEntryFlags)
    (event : InstructionPacket → FetcherEvent) (n i : Nat) (f : Fetcher)
    (c : Connection Req Resp) (k : Nat) :
    ((sendFrom message set event n i f c).1.fetchBuffer k).instruction =
      (f.fetchBuffer k).instruction := by
  induction n generalizing i f c with
  | zero => rfl
  | succ n ih =>
    unfold sendFrom
    split
    · rfl
    · exact (ih (i + 1) _ _).trans (setFlags_instruction f i set k)

theorem sendUnsent_instruction {Req Resp : Type} (message : InstructionPacket → Req)
    (set : FetchBufferEntryFlags → FetchBufferEntryFlags)
    (event : InstructionPacket → FetcherEvent) (isSent : FetchBufferEntryFlags → Bool)
    (f : Fetcher) (c : Connection Req Resp) (k : Nat) :
    ((sendUnsent message set event isSent f c).1.fetchBuffer k).instruction =
      (f.fetchBuffer k).instruction :=
  sendFrom_instruction message set event _ _ f c k

theorem wrongAbout_congr {f g : Fetcher}
    (same : ∀ k, (f.fetchBuffer k).instruction = (g.fetchBuffer k).instruction)
    (responses : List PredictorPacket) (i : Nat) :
    f.wrongAbout responses i = g.wrongAbout responses i := by
  induction responses generalizing i with
  | nil => rfl
  | cons response responses ih => rw [wrongAbout, wrongAbout, same, ih]

theorem checkResponses_wrongAbout (responses : List PredictorPacket) (i : Nat) (f : Fetcher) :
    (checkResponses responses i f).1 = f.wrongAbout responses i := by
  induction responses generalizing i f with
  | nil => rfl
  | cons response responses ih =>
    unfold checkResponses wrongAbout
    dsimp only
    rw [ih, wrongAbout_congr (setFlags_instruction f i .setPredicted)]

/-- The result of `ClockCheckPredictor`. -/
theorem clockBuffered_result (f : Fetcher) (ports : FetcherPorts) :
    (f.clockBuffered ports).1 = f.unconfirmed ports.predictor := by
  unfold clockBuffered clockSendBuffered unconfirmed
  rcases ports.predictor with _ | c
  · rfl
  · obtain ⟨f', c', sent, _, _, views⟩ := sendUnsent_eq query .setSentToPredictor .sentToPredictor
      (·.sentToPredictor) (f.sendToMemory ports.instructionMemory).1 c rfl rfl
    obtain ⟨c'', drain, _⟩ := c'.drainResponses_eq
    have same : ∀ k, (f'.fetchBuffer k).instruction = (f.fetchBuffer k).instruction := by
      intro k
      have second := sendUnsent_instruction query .setSentToPredictor .sentToPredictor
        (·.sentToPredictor) (f.sendToMemory ports.instructionMemory).1 c k
      rw [sent] at second
      exact second.trans (sendUnsent_instruction id .setSentToMemory .sentToMemory
        (·.sentToMemory) f ports.instructionMemory k)
    unfold sendToPredictor
    dsimp only
    rw [sent]
    unfold clockCheckPredictor
    dsimp only
    rw [drain, views.readableResponses]
    cases responses : c.readableResponses with
    | nil => rfl
    | cons response rest =>
      dsimp only
      rw [checkResponses_wrongAbout, wrongAbout_congr same]
      rfl

/-- The fetch appends what its connection holds, and then makes a request when it is
time to. -/
theorem clockFetchAndRequest_eq (f : Fetcher) (ports : FetcherPorts)
    (unsent : ports.fetch.sentRequests = []) :
    ∃ f' fetch',
      f.clockFetchAndRequest ports =
        (f', { ports with fetch := fetch' },
          receptions f.fetchBufferUsage ports.fetch.readableResponses) ∧
      f'.contents = f.contents ++ ports.fetch.readableResponses.map freshEntry ∧
      f'.control = { f.control with
        fetchClock := if f.fetchClock % f.fetchInterval = 0 then 1 else f.fetchClock + 1 } ∧
      ports.fetch.Views fetch'
        (if f.fetchClock % f.fetchInterval = 0 then [f'.request] else [])
        ports.fetch.readableRequests ports.fetch.sentResponses [] := by
  obtain ⟨drained, drain, views⟩ := ports.fetch.drainResponses_eq
  obtain ⟨f', received, contents', control'⟩ := receive_eq ports.fetch.readableResponses f
  obtain ⟨_, interval', clock', _⟩ := fields_of_same_control control'
  unfold clockFetchAndRequest clockFetch
  rw [drain]
  dsimp only
  rw [received, ← control']
  rw [unsent] at views
  by_cases due : f.fetchClock % f.fetchInterval = 0
  · have due' : f'.fetchClock % f'.fetchInterval = 0 := by rw [clock', interval', due]
    rw [if_pos due']
    simp only [if_pos due]
    -- The request buffer was empty, so the request is accepted.
    rcases drained.sendRequest_eq f'.request with ⟨_, bounded, full⟩ | ⟨fetch', stored, sent, _⟩
    · rw [views.sentRequests, List.length_nil] at full
      omega
    · have both := views.trans sent
      rw [views.sentRequests, views.readableRequests, views.sentResponses,
        views.readableResponses] at both
      refine ⟨{ f' with fetchClock := 1 }, fetch', ?_, contents', rfl, both⟩
      unfold clockRequestFetch
      rw [stored]
      rfl
  · have due' : ¬ f'.fetchClock % f'.fetchInterval = 0 := by rw [clock', interval']; exact due
    rw [if_neg due']
    simp only [if_neg due]
    refine ⟨{ f' with fetchClock := f.fetchClock + 1 }, drained, ?_, contents', rfl, views⟩
    rw [← clock']

/-- A clock that returns early only advances the penalty after the first three calls. -/
theorem clock_of_early (f : Fetcher) (ports : FetcherPorts)
    (early : f.returnsEarly ports = true) :
    ∃ f', f.clock ports = (f', (f.clockBuffered ports).2.2) ∧
      f'.contents = (f.clockBuffered ports).2.1.contents ∧
      f'.control = { f.control with
        currentPenalty :=
          if 0 < f.currentPenalty then f.currentPenalty - 1 else f.misspredictPenalty
        fetchClock := if 0 < f.currentPenalty then f.fetchClock else 0 } := by
  obtain ⟨control', _, _⟩ := f.clockBuffered_frame ports
  rw [returnsEarly_iff, ← clockBuffered_result] at early
  unfold clock
  rcases buffered : f.clockBuffered ports with ⟨result, f', ports', events⟩
  rw [buffered] at control' early
  dsimp only at control' early ⊢
  obtain ⟨_, _, clock', missed, penalty, _⟩ := fields_of_same_control control'
  rw [← control', ← penalty, ← missed, ← clock']
  rw [← penalty] at early
  by_cases paying : 0 < f'.currentPenalty
  · rw [if_pos paying, if_pos (by omega), if_pos paying, if_pos paying]
    exact ⟨_, rfl, rfl, rfl⟩
  · have wrong : result = true := by
      rcases early with long | ⟨_, wrong⟩
      · omega
      · exact wrong
    rw [if_neg paying, if_pos wrong, if_neg paying, if_neg paying]
    exact ⟨_, rfl, rfl, rfl⟩

/-- A clock that does not goes on to fetch. -/
theorem clock_of_fetch (f : Fetcher) (ports : FetcherPorts)
    (reaches : f.returnsEarly ports = false) (unsent : ports.fetch.sentRequests = []) :
    ∃ f' fetch',
      f.clock ports =
        (f', { (f.clockBuffered ports).2.2.1 with fetch := fetch' },
          (f.clockBuffered ports).2.2.2 ++
            receptions (f.clockBuffered ports).2.1.fetchBufferUsage
              ports.fetch.readableResponses) ∧
      f'.contents = (f.clockBuffered ports).2.1.contents ++
        ports.fetch.readableResponses.map freshEntry ∧
      f'.control = { f.control with
        currentPenalty := f.currentPenalty - 1
        fetchClock := if f.fetchClock % f.fetchInterval = 0 then 1 else f.fetchClock + 1 } ∧
      ports.fetch.Views fetch'
        (if f.fetchClock % f.fetchInterval = 0 then [f'.request] else [])
        ports.fetch.readableRequests ports.fetch.sentResponses [] := by
  obtain ⟨control', fetchSame, _⟩ := f.clockBuffered_frame ports
  rw [reaches_iff, ← clockBuffered_result] at reaches
  unfold clock
  rcases buffered : f.clockBuffered ports with ⟨result, g, ports', events⟩
  rw [buffered] at control' fetchSame reaches
  dsimp only at control' fetchSame reaches ⊢
  obtain ⟨_, interval', clock', _, penalty, _⟩ := fields_of_same_control control'
  rw [← control', ← fetchSame, ← penalty, ← clock', ← interval']
  rw [← fetchSame] at unsent
  rw [← penalty] at reaches
  obtain ⟨inside, confirmed⟩ := reaches
  by_cases paying : 0 < g.currentPenalty
  · rw [if_pos paying, if_neg (by omega)]
    obtain ⟨f', fetch', fetched, contents', control'', views⟩ :=
      clockFetchAndRequest_eq { g with currentPenalty := g.currentPenalty - 1 } ports' unsent
    refine ⟨f', fetch', ?_, contents', control'', views⟩
    rw [fetched]
  · have right := confirmed (Nat.eq_zero_of_not_pos paying)
    have none : g.currentPenalty - 1 = g.currentPenalty := by omega
    rw [if_neg paying, right, if_neg Bool.false_ne_true, none]
    obtain ⟨f', fetch', fetched, contents', control'', views⟩ :=
      clockFetchAndRequest_eq g ports' unsent
    refine ⟨f', fetch', ?_, contents', control'', views⟩
    rw [fetched]

end Fetcher

end Sinuca3.Source
