import Sinuca3.Source.StdComponents.FetchBuffer

/-!
# The fetch buffer with a predictor

The entries of a fetcher with an in-order predictor, between two clocks: first those
asked about, which were sent to the memory and to the predictor, and then those fetched
since. The first three calls of `Clock` keep this shape, as the memory and the predictor
take equally many entries: a response never finds an entry that cannot leave.
-/
namespace Sinuca3.Source

namespace Fetcher

/-- An instruction the memory and the predictor were sent. -/
def askedEntry (instruction : InstructionPacket) : FetchBufferEntry :=
  { instruction, flags := { sentToMemory := true, sentToPredictor := true } }

def memoryEntry (instruction : InstructionPacket) : FetchBufferEntry :=
  { instruction, flags := { sentToMemory := true } }

/-- An entry that leaves. -/
def predictedEntry (instruction : InstructionPacket) : FetchBufferEntry :=
  { instruction, flags := { sentToMemory := true, sentToPredictor := true, predicted := true } }

def aligned (asked fresh : List InstructionPacket) : List FetchBufferEntry :=
  asked.map askedEntry ++ fresh.map freshEntry

theorem takeWhile_split {α : Type} (p : α → Bool) (front back : List α)
    (pass : ∀ x ∈ front, p x = true) (stop : ∀ x ∈ back, p x = false) :
    (front ++ back).takeWhile p = front ∧ (front ++ back).dropWhile p = back := by
  rw [List.takeWhile_append_of_pos pass, List.dropWhile_append_of_pos pass]
  cases back with
  | nil => simp
  | cons x back => simp [stop x (by simp)]

theorem sendToMemory_aligned {f : Fetcher} {asked fresh : List InstructionPacket}
    (shape : f.contents = aligned asked fresh) (c : MemoryConnection) :
    ∃ f' c', f.sendToMemory c =
        (f', c', (fresh.take (c.takes fresh.length)).map .sentToMemory) ∧
      f'.contents = asked.map askedEntry ++
        ((fresh.take (c.takes fresh.length)).map memoryEntry ++
          (fresh.drop (c.takes fresh.length)).map freshEntry) ∧
      f'.control = f.control ∧ c'.bufferSize = c.bufferSize := by
  have passes : (aligned asked fresh).takeWhile (fun entry => entry.flags.sentToMemory) =
      asked.map askedEntry ∧
      (aligned asked fresh).dropWhile (fun entry => entry.flags.sentToMemory) =
        fresh.map freshEntry := by
    apply takeWhile_split
    · intro entry member
      obtain ⟨p, _, rfl⟩ := List.mem_map.mp member
      rfl
    · intro entry member
      obtain ⟨p, _, rfl⟩ := List.mem_map.mp member
      rfl
  rw [← shape] at passes
  obtain ⟨f', c', sent, contents', control', views⟩ := sendUnsent_eq id .setSentToMemory
    .sentToMemory (·.sentToMemory) f c passes.1 passes.2
  rw [List.length_map] at sent contents'
  refine ⟨f', c', ?_, ?_, control', views.bufferSize⟩
  · unfold sendToMemory
    rw [sent, ← List.map_take, List.map_map]
    rfl
  · rw [contents', ← List.map_take, ← List.map_drop, List.map_map, List.append_assoc]
    rfl

/-- The predictor takes the entries that the memory took. -/
theorem sendToPredictor_aligned {f : Fetcher} {asked fresh : List InstructionPacket}
    {c : PredictorConnection}
    (shape : f.contents = asked.map askedEntry ++
      ((fresh.take (c.takes fresh.length)).map memoryEntry ++
        (fresh.drop (c.takes fresh.length)).map freshEntry)) :
    ∃ f' c', f.sendToPredictor c =
        (f', c', (fresh.take (c.takes fresh.length)).map .sentToPredictor) ∧
      f'.contents = aligned (asked ++ fresh.take (c.takes fresh.length))
        (fresh.drop (c.takes fresh.length)) ∧
      f'.control = f.control ∧
      c.Views c' (c.sentRequests ++ (fresh.take (c.takes fresh.length)).map query)
        c.readableRequests c.sentResponses c.readableResponses := by
  have passes := takeWhile_split (fun entry => entry.flags.sentToPredictor)
    (asked.map askedEntry)
    ((fresh.take (c.takes fresh.length)).map memoryEntry ++
      (fresh.drop (c.takes fresh.length)).map freshEntry)
    (by
      intro entry member
      obtain ⟨p, _, rfl⟩ := List.mem_map.mp member
      rfl)
    (by
      intro entry member
      rcases List.mem_append.mp member with taken | left
      · obtain ⟨p, _, rfl⟩ := List.mem_map.mp taken
        rfl
      · obtain ⟨p, _, rfl⟩ := List.mem_map.mp left
        rfl)
  rw [← shape] at passes
  obtain ⟨f', c', sent, contents', control', views⟩ := sendUnsent_eq query .setSentToPredictor
    .sentToPredictor (·.sentToPredictor) f c passes.1 passes.2
  have fits := c.takes_le fresh.length
  have taken : (fresh.take (c.takes fresh.length)).length = c.takes fresh.length := by
    rw [List.length_take]
    omega
  have all : ((fresh.take (c.takes fresh.length)).map memoryEntry ++
      (fresh.drop (c.takes fresh.length)).map freshEntry).length = fresh.length := by
    rw [List.length_append, List.length_map, List.length_map, taken, List.length_drop]
    omega
  rw [all, List.take_left' (by rw [List.length_map, taken])] at sent contents' views
  rw [List.drop_left' (by rw [List.length_map, taken])] at contents'
  rw [List.map_map] at sent contents' views
  refine ⟨f', c', ?_, ?_, control', views⟩
  · unfold sendToPredictor
    rw [sent]
    rfl
  · rw [contents']
    unfold aligned
    rw [List.map_append]
    rfl

/-- As many entries are attributed as there are responses. -/
theorem attributions_append (i : Nat) (front back : List InstructionPacket)
    (responses : List PredictorPacket) (enough : responses.length ≤ front.length) :
    attributions i (front ++ back) responses = attributions i front responses := by
  induction responses generalizing i front with
  | nil => cases front <;> cases back <;> rfl
  | cons response responses ih =>
    cases front with
    | nil => simp at enough
    | cons instruction front =>
      rw [List.cons_append, attributions, attributions, ih (i + 1) front (by simpa using enough)]

/-- The responses mark the first entries, which were all asked about. -/
theorem clockCheckPredictor_aligned {f : Fetcher} (ports : FetcherPorts) {c : PredictorConnection}
    (predictor : ports.predictor = some c) {asked fresh : List InstructionPacket}
    (shape : f.contents = aligned asked fresh)
    (enough : c.readableResponses.length ≤ asked.length) :
    ∃ result f' c', f.clockCheckPredictor ports =
        (result, f', { ports with predictor := some c' },
          attributions 0 asked c.readableResponses) ∧
      f'.contents = (asked.take c.readableResponses.length).map predictedEntry ++
        aligned (asked.drop c.readableResponses.length) fresh ∧
      f'.control = f.control ∧
      c.Views c' c.sentRequests c.readableRequests c.sentResponses [] := by
  obtain ⟨c', drain, views⟩ := c.drainResponses_eq
  unfold clockCheckPredictor
  rw [predictor]
  dsimp only
  rw [drain]
  cases responses : c.readableResponses with
  | nil =>
    refine ⟨true, f, c', ?_, ?_, rfl, ?_⟩
    · dsimp only
      cases asked <;> rfl
    · rw [shape]
      rfl
    · exact views
  | cons response rest =>
    rw [← responses]
    have long : c.readableResponses.length ≤ f.contents.length := by
      rw [shape]
      unfold aligned
      rw [List.length_append, List.length_map]
      omega
    obtain ⟨result, f', checked, contents', control'⟩ :=
      checkResponses_eq c.readableResponses [] f.contents f rfl long
    have instructions : f.contents.map (·.instruction) = asked ++ fresh := by
      rw [shape]
      simp [aligned, askedEntry, freshEntry, Function.comp_def]
    rw [List.length_nil, instructions, attributions_append 0 asked fresh _ enough] at checked
    refine ⟨result, f', c', ?_, ?_, control', ?_⟩
    · rw [responses] at checked ⊢
      dsimp only
      rw [checked]
    · rw [contents', shape]
      unfold aligned
      rw [List.take_append_of_le_length (by simpa using enough),
        List.drop_append_of_le_length (by simpa using enough), ← List.map_take, ← List.map_drop,
        List.map_map]
      rfl
    · exact views

/-- The marked entries leave. -/
theorem clockUnbuffer_aligned {f : Fetcher} {done asked fresh : List InstructionPacket}
    (checks : f.flagsToCheck = { sentToMemory := true, predicted := true })
    (shape : f.contents = done.map predictedEntry ++ aligned asked fresh) :
    ∃ f', f.clockUnbuffer = (f', (done.map predictedEntry).map .unbuffered) ∧
      f'.contents = aligned asked fresh ∧ f'.control = f.control := by
  have passes := takeWhile_split (fun entry => entry.flags.contains f.flagsToCheck)
    (done.map predictedEntry) (aligned asked fresh)
    (by
      intro entry member
      obtain ⟨p, _, rfl⟩ := List.mem_map.mp member
      rw [checks]
      rfl)
    (by
      intro entry member
      rw [checks]
      rcases List.mem_append.mp member with old | new
      · obtain ⟨p, _, rfl⟩ := List.mem_map.mp old
        rfl
      · obtain ⟨p, _, rfl⟩ := List.mem_map.mp new
        rfl)
  rw [← shape] at passes
  exact clockUnbuffer_eq f passes.1 passes.2

/-- The first three calls of `Clock`. -/
theorem clockBuffered_aligned {f : Fetcher} {ports : FetcherPorts} {c : PredictorConnection}
    (predictor : ports.predictor = some c)
    (checks : f.flagsToCheck = { sentToMemory := true, predicted := true })
    (unsent : ports.instructionMemory.sentRequests = [] ∧ c.sentRequests = [])
    (sameSize : ports.instructionMemory.bufferSize = c.bufferSize)
    {asked fresh : List InstructionPacket} (shape : f.contents = aligned asked fresh)
    (enough : c.readableResponses.length ≤ asked.length) :
    ∃ result f' memory' c', f.clockBuffered ports =
        (result, f', { ports with instructionMemory := memory', predictor := some c' },
          (fresh.take (c.takes fresh.length)).map .sentToMemory ++
            (fresh.take (c.takes fresh.length)).map .sentToPredictor ++
            attributions 0 asked c.readableResponses ++
            ((asked.take c.readableResponses.length).map predictedEntry).map .unbuffered) ∧
      f'.contents = aligned
        (asked.drop c.readableResponses.length ++ fresh.take (c.takes fresh.length))
        (fresh.drop (c.takes fresh.length)) ∧
      memory'.bufferSize = ports.instructionMemory.bufferSize ∧
      c.Views c' ((fresh.take (c.takes fresh.length)).map query) c.readableRequests
        c.sentResponses [] := by
  have sameTakes : ports.instructionMemory.takes fresh.length = c.takes fresh.length := by
    unfold Connection.takes
    rw [sameSize, unsent.1, unsent.2]
    rfl
  obtain ⟨f₁, memory', toMemory, contents₁, control₁, size⟩ :=
    sendToMemory_aligned shape ports.instructionMemory
  rw [sameTakes] at toMemory contents₁
  obtain ⟨f₂, c₁, toPredictor, contents₂, control₂, views₁⟩ := sendToPredictor_aligned contents₁
  have waiting := views₁.readableResponses
  obtain ⟨result, f₃, c₂, checked, contents₃, control₃, views₂⟩ := clockCheckPredictor_aligned
    { ports with instructionMemory := memory', predictor := some c₁ } rfl contents₂
    (by rw [waiting, List.length_append]; omega)
  rw [waiting, attributions_append 0 asked _ _ enough] at checked
  rw [waiting, List.take_append_of_le_length enough, List.drop_append_of_le_length enough]
    at contents₃
  obtain ⟨_, _, _, _, _, flags⟩ :=
    fields_of_same_control (control₃.trans (control₂.trans control₁))
  obtain ⟨f₄, unbuffered, contents₄, _⟩ := clockUnbuffer_aligned (flags.trans checks) contents₃
  refine ⟨result, f₄, memory', c₂, ?_, contents₄, size, ?_⟩
  · unfold clockBuffered clockSendBuffered
    rw [predictor]
    dsimp only
    rw [toMemory]
    dsimp only
    rw [toPredictor]
    dsimp only
    rw [checked]
    dsimp only
    rw [unbuffered]
  · have both := views₁.trans views₂
    rw [views₁.sentRequests, views₁.readableRequests, views₁.sentResponses, unsent.2] at both
    exact both

/-- Without a predictor, the entries that the memory takes leave. -/
theorem clockBuffered_unpredicted {f : Fetcher} {ports : FetcherPorts}
    (predictor : ports.predictor = none) (checks : f.flagsToCheck = { sentToMemory := true })
    {fresh : List InstructionPacket} (shape : f.contents = fresh.map freshEntry) :
    (f.clockBuffered ports).2.1.contents =
        (fresh.drop (ports.instructionMemory.takes fresh.length)).map freshEntry ∧
      (f.clockBuffered ports).2.2.1.instructionMemory.bufferSize =
        ports.instructionMemory.bufferSize ∧
      (f.clockBuffered ports).2.2.1.predictor = none := by
  obtain ⟨f₁, memory', toMemory, contents₁, control₁, size⟩ :=
    sendToMemory_aligned (show f.contents = aligned [] fresh from shape) ports.instructionMemory
  obtain ⟨_, _, _, _, _, flags⟩ := fields_of_same_control control₁
  rw [List.map_nil, List.nil_append] at contents₁
  have passes := takeWhile_split (fun entry => entry.flags.contains f₁.flagsToCheck)
    ((fresh.take (ports.instructionMemory.takes fresh.length)).map memoryEntry)
    ((fresh.drop (ports.instructionMemory.takes fresh.length)).map freshEntry)
    (by
      intro entry member
      obtain ⟨p, _, rfl⟩ := List.mem_map.mp member
      rw [flags, checks]
      rfl)
    (by
      intro entry member
      obtain ⟨p, _, rfl⟩ := List.mem_map.mp member
      rw [flags, checks]
      rfl)
  rw [← contents₁] at passes
  obtain ⟨f₂, unbuffered, contents₂, _⟩ := clockUnbuffer_eq f₁ passes.1 passes.2
  unfold clockBuffered clockSendBuffered clockCheckPredictor
  rw [predictor]
  dsimp only
  rw [toMemory]
  dsimp only
  rw [unbuffered]
  exact ⟨contents₂, size, rfl⟩

end Fetcher

end Sinuca3.Source
