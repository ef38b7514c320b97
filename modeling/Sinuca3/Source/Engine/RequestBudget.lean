import Sinuca3.Source.Engine.FetchStage

/-!
# What a request is answered with

`Engine::Fetch` counts the buffered instruction before it sends it: a request for a
positive number of octets is answered with instructions of fewer octets in all.
-/
namespace Sinuca3.Source
open Lib

/-- The octets that instructions take. -/
def bytes (ps : List InstructionPacket) : Nat :=
  (ps.map fun p => p.staticInfo.instSize.toNat).sum

@[simp] theorem bytes_nil : bytes [] = 0 := rfl

@[simp] theorem bytes_cons (p : InstructionPacket) (ps : List InstructionPacket) :
    bytes (p :: ps) = p.staticInfo.instSize.toNat + bytes ps := rfl

@[simp] theorem bytes_append (ps qs : List InstructionPacket) :
    bytes (ps ++ qs) = bytes ps + bytes qs := by
  simp [bytes]

/-- Instructions of at least an octet each. -/
theorem length_le_bytes {ps : List InstructionPacket} (sized : ∀ p ∈ ps, Engine.Sized p) :
    ps.length ≤ bytes ps := by
  induction ps with
  | nil => exact Nat.le_refl 0
  | cons p ps ih =>
    have first := (sized p (by simp)).1
    have rest := ih fun q member => sized q (List.mem_cons_of_mem p member)
    rw [List.length_cons, bytes_cons]
    omega

/-- A sum of sizes that fits is not cut. -/
theorem foldl_sizes (sizes : List (BitVec 64)) (start : BitVec 64)
    (fits : start.toNat + (sizes.map BitVec.toNat).sum < 18446744073709551616) :
    (sizes.foldl (· + ·) start).toNat = start.toNat + (sizes.map BitVec.toNat).sum := by
  induction sizes generalizing start with
  | nil => simp
  | cons size sizes ih =>
    rw [List.map_cons, List.sum_cons] at fits
    have added : (start + size).toNat = start.toNat + size.toNat := by
      rw [BitVec.toNat_add]
      exact Nat.mod_eq_of_lt (by omega)
    rw [List.foldl_cons, ih (start + size) (by omega), added, List.map_cons, List.sum_cons]
    omega

/-- The octets that instructions leave of a buffer, as a request computes them. -/
theorem sub_foldl_sizes {held : List InstructionPacket} {fetchSize : Nat}
    (fits : bytes held < fetchSize) (small : fetchSize < 2147483648) :
    (BitVec.ofNat 64 fetchSize -
      (held.map fun p : InstructionPacket => p.staticInfo.instSize).foldl (· + ·) 0).toInt =
        (fetchSize : Int) - bytes held := by
  have total : ((held.map fun p : InstructionPacket => p.staticInfo.instSize).foldl
      (· + ·) 0).toNat = bytes held := by
    have sum := foldl_sizes (held.map fun p : InstructionPacket => p.staticInfo.instSize) 0
    rw [List.map_map] at sum
    change 0 + bytes held < _ → _ = 0 + bytes held at sum
    rw [Nat.zero_add] at sum
    exact sum (by omega)
  have whole : (BitVec.ofNat 64 fetchSize).toNat = fetchSize := by
    rw [BitVec.toNat_ofNat]
    exact Nat.mod_eq_of_lt (by omega)
  have difference : (BitVec.ofNat 64 fetchSize -
      (held.map fun p : InstructionPacket => p.staticInfo.instSize).foldl (· + ·) 0).toNat =
      fetchSize - bytes held := by
    rw [BitVec.toNat_sub_of_le (by rw [BitVec.le_def]; omega), whole, total]
  rw [BitVec.toInt_eq_toNat_of_lt (by omega), difference]
  omega

/-- What the reader returns is an instruction of at least one octet. -/
def EngineEvent.SizedAnswer : EngineEvent → Prop
  | .fetched _ _ packet => Engine.Sized packet
  | .sent _ _ _ => True

instance : DecidablePred EngineEvent.SizedAnswer
  | .fetched _ _ packet => inferInstanceAs (Decidable (Engine.Sized packet))
  | .sent _ _ _ => .isTrue trivial

/-- The trace goes on after it. -/
def EngineEvent.Continues : EngineEvent → Prop
  | .fetched _ result _ => result ≠ .end_ ∧ result ≠ .error
  | .sent _ _ _ => True

instance : DecidablePred EngineEvent.Continues
  | .fetched _ _ _ => inferInstanceAs (Decidable (_ ∧ _))
  | .sent _ _ _ => .isTrue trivial

namespace Engine

variable {ρ : Type}

/-- What a call of `SendBufferedAndFetch` puts on the connection of its core: the
buffered instruction or, when there is no room, nothing. -/
theorem sendBufferedAndFetch_sends (R : TraceReader ρ) (e : Engine ρ)
    (sized : Sized (e.fetchBuffers 0))
    (answers : ∀ event ∈ (e.sendBufferedAndFetch R 0).2.2, event.SizedAnswer) :
    bytes (delivered 0 (e.sendBufferedAndFetch R 0).2.2) ≤
        (e.fetchBuffers 0).staticInfo.instSize.toNat ∧
      (∀ p ∈ delivered 0 (e.sendBufferedAndFetch R 0).2.2, Sized p) ∧
      Sized ((e.sendBufferedAndFetch R 0).2.1.fetchBuffers 0) := by
  obtain ⟨e', accepted, result, buffers, _⟩ := e.sendBufferedAndFetch_eq R 0
  rw [result] at answers ⊢
  refine ⟨?_, ?_, ?_⟩
  · cases accepted <;> simp [delivered]
  · cases accepted
    · intro p member
      simp [delivered] at member
    · intro p member
      simp only [delivered, List.filterMap_cons, List.filterMap_nil] at member
      rw [List.mem_singleton.mp member]
      exact sized
  · dsimp only
    rw [buffers, Function.update_self]
    exact answers _ (List.mem_cons_self ..)

/-- The octets sent, and those counted before the buffered instruction, stay below the
request. -/
theorem fetchLoop_sends (R : TraceReader ρ) (request : Int)
    (small : request ≤ 2147483648) (bound : Nat) (weight : Int) (e : Engine ρ)
    (sized : Sized (e.fetchBuffers 0))
    (counted : (e.fetchBuffers 0).staticInfo.instSize.toNat ≤ weight)
    (answers : ∀ event ∈ (fetchLoop R 0 request bound weight e).2, event.SizedAnswer) :
    (delivered 0 (fetchLoop R 0 request bound weight e).2 = [] ∨
      bytes (delivered 0 (fetchLoop R 0 request bound weight e).2) + weight <
        request + (e.fetchBuffers 0).staticInfo.instSize.toNat) ∧
      (∀ p ∈ delivered 0 (fetchLoop R 0 request bound weight e).2, Sized p) ∧
      Sized ((fetchLoop R 0 request bound weight e).1.fetchBuffers 0) := by
  induction bound generalizing weight e with
  | zero =>
    refine ⟨Or.inl rfl, ?_, sized⟩
    intro p member
    cases member
  | succ bound ih =>
    unfold fetchLoop at answers ⊢
    split at answers
    · rename_i below
      rw [if_pos below]
      have sends := sendBufferedAndFetch_sends R e sized
      rcases result : e.sendBufferedAndFetch R 0 with ⟨_ | _, e', events⟩
      · rw [result] at answers sends
        obtain ⟨sent, sentSized, sized'⟩ := sends fun event member =>
          answers event (List.mem_append_left _ member)
        have added := addWeight_eq weight (e'.fetchBuffers 0).staticInfo.instSize (by omega)
          (by omega) sized'.2
        obtain ⟨later, laterSized, sized''⟩ := ih
          (addWeight weight (e'.fetchBuffers 0).staticInfo.instSize) e' sized' (by omega)
          fun event member => answers event (List.mem_append_right _ member)
        dsimp only at sent sentSized ⊢
        rw [delivered_append, bytes_append]
        refine ⟨Or.inr ?_, ?_, sized''⟩
        · rcases later with none | below'
          · rw [none, bytes_nil]
            omega
          · omega
        · intro p member
          rcases List.mem_append.mp member with first | second
          · exact sentSized p first
          · exact laterSized p second
      · rw [result] at answers sends
        obtain ⟨sent, sentSized, sized'⟩ := sends answers
        dsimp only at sent sentSized sized' ⊢
        exact ⟨Or.inr (by omega), sentSized, sized'⟩
    · rename_i reached
      rw [if_neg reached]
      refine ⟨Or.inl rfl, ?_, sized⟩
      intro p member
      cases member

/-- With room for a response, it is the buffered instruction. -/
theorem sendBufferedAndFetch_delivers (R : TraceReader ρ) (e : Engine ρ)
    (room : ¬ (0 < (e.connections 0).bufferSize ∧
      (e.connections 0).sentResponses.length = (e.connections 0).bufferSize)) :
    bytes (delivered 0 (e.sendBufferedAndFetch R 0).2.2) =
        (e.fetchBuffers 0).staticInfo.instSize.toNat ∧
      (delivered 0 (e.sendBufferedAndFetch R 0).2.2).length = 1 := by
  unfold sendBufferedAndFetch
  rcases R.fetch e.traceReader (e.fetchBuffers 0) 0 with ⟨r, packet, reader⟩
  dsimp only
  unfold sendResponseToConnection
  rcases (e.connections 0).sendResponse_eq
      { e.fetchBuffers 0 with nextInstruction := packet.staticInfo.instAddress } with
    ⟨_, full⟩ | ⟨c, sent, _⟩
  · exact absurd full room
  · rw [sent]
    cases r <;> simp [delivered]

/-- The loop does not stop before the octets it has sent, with those of the instruction
that is then buffered, reach the request. -/
theorem fetchLoop_fills (R : TraceReader ρ) (request : Int)
    (small : request ≤ 2147483648) (bound : Nat) (weight : Int) (e : Engine ρ)
    (sized : Sized (e.fetchBuffers 0))
    (counted : (e.fetchBuffers 0).staticInfo.instSize.toNat ≤ weight)
    (enough : request - weight ≤ bound)
    (room : (e.connections 0).sentResponses.length + (request - weight) ≤
      (e.connections 0).bufferSize)
    (answers : ∀ event ∈ (fetchLoop R 0 request bound weight e).2,
      event.SizedAnswer ∧ event.Continues) :
    request + (e.fetchBuffers 0).staticInfo.instSize.toNat ≤
      bytes (delivered 0 (fetchLoop R 0 request bound weight e).2) +
        ((fetchLoop R 0 request bound weight e).1.fetchBuffers 0).staticInfo.instSize.toNat +
          weight := by
  induction bound generalizing weight e with
  | zero =>
    unfold fetchLoop
    dsimp only
    omega
  | succ bound ih =>
    unfold fetchLoop at answers ⊢
    split at answers
    · rename_i below
      rw [if_pos below]
      obtain ⟨bytesSent, one⟩ := sendBufferedAndFetch_delivers R e (by omega)
      have serves := sendBufferedAndFetch_serves R 0 e 0
      obtain ⟨e', accepted, result, buffers, _⟩ := e.sendBufferedAndFetch_eq R 0
      generalize R.fetch e.traceReader (e.fetchBuffers 0) 0 = fetched at result buffers
      rw [result] at answers serves bytesSent one ⊢
      have first : EngineEvent.SizedAnswer (.fetched 0 fetched.1 fetched.2.1) ∧
          EngineEvent.Continues (.fetched 0 fetched.1 fetched.2.1) := by
        refine answers _ ?_
        cases decide (fetched.1 = .end_ ∨ fetched.1 = .error) <;> simp
      obtain ⟨sized', goes⟩ := first
      have goes : decide (fetched.1 = .end_ ∨ fetched.1 = .error) = false :=
        decide_eq_false (not_or.mpr goes)
      rw [goes] at answers ⊢
      dsimp only at answers serves bytesSent one ⊢
      change Sized fetched.2.1 at sized'
      have same : e'.fetchBuffers 0 = fetched.2.1 := by rw [buffers, Function.update_self]
      rw [← same] at sized'
      have added := addWeight_eq weight (e'.fetchBuffers 0).staticInfo.instSize (by omega)
        (by omega) sized'.2
      have grown := congrArg List.length serves.sentResponses
      rw [List.length_append, one] at grown
      have size := serves.bufferSize
      have positive := sized'.1
      have later := ih (addWeight weight (e'.fetchBuffers 0).staticInfo.instSize) e' sized'
        (by omega) (by omega) (by omega)
        fun event member => answers event (List.mem_append_right _ member)
      rw [delivered_append, bytes_append, bytesSent]
      omega
    · rename_i reached
      rw [if_neg reached]
      dsimp only
      omega

theorem sendBufferedAndFetch_fetchers (R : TraceReader ρ) (e : Engine ρ) (id : Nat) :
    (e.sendBufferedAndFetch R id).2.1.numberOfFetchers = e.numberOfFetchers := by
  have kept : ∀ (e : Engine ρ) toSend,
      (e.sendResponseToConnection id toSend).2.numberOfFetchers = e.numberOfFetchers := by
    intro e toSend
    unfold sendResponseToConnection
    split <;> rfl
  unfold sendBufferedAndFetch
  rcases R.fetch e.traceReader (e.fetchBuffers id) id with ⟨r, packet, reader⟩
  cases r <;> exact kept _ _

theorem fetchLoop_fetchers (R : TraceReader ρ) (id : Nat) (request : Int) (bound : Nat)
    (weight : Int) (e : Engine ρ) :
    (fetchLoop R id request bound weight e).1.numberOfFetchers = e.numberOfFetchers := by
  induction bound generalizing weight e with
  | zero => rfl
  | succ bound ih =>
    unfold fetchLoop
    split
    · have sent := sendBufferedAndFetch_fetchers R e id
      rcases result : e.sendBufferedAndFetch R id with ⟨_ | _, e', events⟩ <;> rw [result] at sent
      · exact (ih _ e').trans sent
      · exact sent
    · rfl

/-- With one core, the clock of the engine is one iteration of its loop. -/
theorem clock_of_one (R : TraceReader ρ) (bound : Nat) (e : Engine ρ)
    (one : e.numberOfFetchers = 1) : e.clock R bound = e.clockConnection R bound 0 := by
  unfold clock
  rw [one]
  exact Prod.ext rfl (List.append_nil _)

section Server

variable (R : TraceReader ρ) (bound : Nat) (state : Engine ρ × List EngineEvent)
  (c : FetchConnection)

/-- The clock of an engine that finds no request. -/
theorem server_clock_of_none (one : state.1.numberOfFetchers = 1)
    (queue : c.readableRequests = []) :
    (server R bound).clock state c = ((state.1.setConnection 0 c, state.2 ++ []), c) := by
  have connection : (state.1.setConnection 0 c).connections 0 = c := by
    simp [setConnection]
  unfold server
  dsimp only
  rw [clock_of_one R bound (state.1.setConnection 0 c) one]
  unfold clockConnection
  rw [connection]
  rcases c.getRequest_eq with ⟨none, _⟩ | ⟨_, _, _, _, some, _⟩
  · rw [none]
    dsimp only
    rw [connection]
  · rw [queue] at some
    cases some

/-- Where it finds one for some octets, it is that of its loop. -/
theorem server_clock_of_request (one : state.1.numberOfFetchers = 1)
    (sized : Sized (state.1.fetchBuffers 0)) {r : Int} (queue : c.readableRequests = [r])
    (positive : 0 < r) :
    ∃ e : Engine ρ, e.fetchBuffers = state.1.fetchBuffers ∧ e.numberOfFetchers = 1 ∧
      (e.connections 0).bufferSize = c.bufferSize ∧
      (e.connections 0).sentResponses = c.sentResponses ∧
      (server R bound).clock state c =
        (((fetchLoop R 0 r bound (state.1.fetchBuffers 0).staticInfo.instSize.toNat e).1,
          state.2 ++ (fetchLoop R 0 r bound (state.1.fetchBuffers 0).staticInfo.instSize.toNat e).2),
          (fetchLoop R 0 r bound
            (state.1.fetchBuffers 0).staticInfo.instSize.toNat e).1.connections 0) := by
  have connection : (state.1.setConnection 0 c).connections 0 = c := by
    simp [setConnection]
  unfold server
  dsimp only
  rw [clock_of_one R bound (state.1.setConnection 0 c) one]
  unfold clockConnection
  rw [connection]
  rcases c.getRequest_eq with ⟨_, empty⟩ | ⟨r', c', rest, taken, some, views⟩
  · rw [queue] at empty
    cases empty
  · rw [queue] at some
    cases some
    rw [taken]
    dsimp only
    have connection' : ((state.1.setConnection 0 c).setConnection 0 c').connections 0 = c' := by
      simp [setConnection]
    refine ⟨(state.1.setConnection 0 c).setConnection 0 c', rfl, one, ?_, ?_, ?_⟩
    · rw [connection']
      exact views.bufferSize
    · rw [connection']
      exact views.sentResponses
    · have weight : ((state.1.setConnection 0 c).setConnection 0 c').fetchBuffers 0 =
          state.1.fetchBuffers 0 := rfl
      unfold fetch
      rw [if_neg (by omega), weight,
        BitVec.toInt_eq_toNat_of_lt (by have := sized.2; omega)]

/-- What the engine does with the one request it may find: it sends fewer octets than
were asked for. -/
theorem server_answers (one : state.1.numberOfFetchers = 1)
    (sized : Sized (state.1.fetchBuffers 0)) (unanswered : c.sentResponses = [])
    (requests : c.readableRequests = [] ∨
      ∃ r, c.readableRequests = [r] ∧ 0 < r ∧ r ≤ 2147483648)
    (answers : ∀ event ∈ ((server R bound).clock state c).1.2, event.SizedAnswer) :
    (((server R bound).clock state c).2.sentResponses = [] ∨
      ∃ r, c.readableRequests = [r] ∧
        bytes ((server R bound).clock state c).2.sentResponses < r) ∧
    (∀ p ∈ ((server R bound).clock state c).2.sentResponses, Sized p) ∧
    Sized (((server R bound).clock state c).1.1.fetchBuffers 0) ∧
    ((server R bound).clock state c).1.1.numberOfFetchers = 1 := by
  rcases requests with none | ⟨r, queue, positive, small⟩
  · rw [server_clock_of_none R bound state c one none]
    dsimp only
    rw [unanswered]
    refine ⟨Or.inl rfl, ?_, sized, one⟩
    intro p member
    cases member
  · obtain ⟨e, buffers, one', _, unanswered', result⟩ :=
      server_clock_of_request R bound state c one sized queue positive
    rw [unanswered] at unanswered'
    have served := (fetchLoop_serves R 0 0 r bound
      (state.1.fetchBuffers 0).staticInfo.instSize.toNat e).sentResponses
    rw [unanswered', List.nil_append] at served
    rw [← buffers] at sized result served
    rw [result] at answers ⊢
    dsimp only at answers ⊢
    rw [served]
    obtain ⟨sent, sentSized, sized'⟩ := fetchLoop_sends R r small bound _ e sized (Int.le_refl _)
      fun event member => answers event (List.mem_append_right _ member)
    refine ⟨?_, sentSized, sized', ?_⟩
    · rcases sent with nothing | fewer
      · exact Or.inl nothing
      · exact Or.inr ⟨r, queue, by omega⟩
    · rw [fetchLoop_fetchers]
      exact one'

/-- As long as the trace goes on, the answer and the instruction that is then buffered reach
the request, and the engine does not read on if the one it has buffered does. -/
theorem server_fills (one : state.1.numberOfFetchers = 1)
    (sized : Sized (state.1.fetchBuffers 0)) (unanswered : c.sentResponses = [])
    (answers : ∀ event ∈ ((server R bound).clock state c).1.2,
      event.SizedAnswer ∧ event.Continues) :
    (c.readableRequests = [] → ((server R bound).clock state c).2.sentResponses = [] ∧
      ((server R bound).clock state c).1.1.fetchBuffers 0 = state.1.fetchBuffers 0) ∧
    ∀ r : Int, c.readableRequests = [r] → 0 < r → r ≤ 2147483648 → r ≤ bound →
      r ≤ c.bufferSize →
      r ≤ bytes ((server R bound).clock state c).2.sentResponses +
          (((server R bound).clock state c).1.1.fetchBuffers 0).staticInfo.instSize.toNat ∧
      (r ≤ (state.1.fetchBuffers 0).staticInfo.instSize.toNat →
        ((server R bound).clock state c).2.sentResponses = [] ∧
          ((server R bound).clock state c).1.1.fetchBuffers 0 = state.1.fetchBuffers 0) := by
  constructor
  · intro none
    rw [server_clock_of_none R bound state c one none]
    exact ⟨unanswered, rfl⟩
  · intro r queue positive small enough room
    obtain ⟨e, buffers, _, size, unanswered', result⟩ :=
      server_clock_of_request R bound state c one sized queue positive
    rw [unanswered] at unanswered'
    have served := (fetchLoop_serves R 0 0 r bound
      (state.1.fetchBuffers 0).staticInfo.instSize.toNat e).sentResponses
    rw [unanswered', List.nil_append] at served
    rw [← buffers] at sized result served ⊢
    rw [result] at answers ⊢
    dsimp only at answers ⊢
    rw [served]
    constructor
    · have fills := fetchLoop_fills R r small bound _ e sized (Int.le_refl _) (by omega)
        (by rw [unanswered', size, List.length_nil]; omega)
        fun event member => answers event (List.mem_append_right _ member)
      omega
    · intro full
      have stops : fetchLoop R 0 r bound (e.fetchBuffers 0).staticInfo.instSize.toNat e = (e, []) := by
        cases bound with
        | zero => rfl
        | succ bound =>
          unfold fetchLoop
          rw [if_neg (by omega)]
      rw [stops]
      exact ⟨rfl, rfl⟩

end Server

end Engine

end Sinuca3.Source
