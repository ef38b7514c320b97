import Mathlib.Data.Nat.Find
import Sinuca3.Source.Engine.RequestBudget

/-!
# How far a request is filled

A request asks for an amount of octets, up to which the engine fetches. Its loop adds
the size of the buffered instruction before it compares, so that it stops short of an
instruction that would make the amount exact.
-/
namespace Sinuca3.Guarantees
open Sinuca3.Source Lib

variable {ρ : Type}

/-- The next answers of the reader to core `id` are `ok`, with these instructions. -/
def Supplies (R : TraceReader ρ) (id : Nat) : ρ → InstructionPacket → List InstructionPacket → Prop
  | _, _, [] => True
  | s, p, q :: qs =>
    (R.fetch s p id).1 = .ok ∧ (R.fetch s p id).2.1 = q ∧ Supplies R id (R.fetch s p id).2.2 q qs

/-- The instructions sent are the longest prefix of the stream of at most `request`
octets, and the one after them is buffered. -/
def FillsGreedily (request : Nat) (stream sent : List InstructionPacket)
    (buffered : InstructionPacket) : Prop :=
  ∃ k, sent.map (·.instruction) = (stream.take k).map (·.instruction) ∧
    stream[k]? = some buffered ∧ bytes (stream.take k) ≤ request ∧
    ∀ j ≤ stream.length, bytes (stream.take j) ≤ request → j ≤ k

/-- The shortest prefix of at least `request` octets has more, and its octets are counted
by a `long`. -/
def ReachesOver (request : Nat) (stream : List InstructionPacket) : Prop :=
  ∀ k, (∀ j < k, bytes (stream.take j) < request) → request ≤ bytes (stream.take k) →
    request < bytes (stream.take k) ∧ bytes (stream.take k) < 9223372036854775808

theorem bytes_take_mono (stream : List InstructionPacket) {j k : Nat} (le : j ≤ k) :
    bytes (stream.take j) ≤ bytes (stream.take k) := by
  have front : (stream.take k).take j = stream.take j := by
    rw [List.take_take, Nat.min_eq_left le]
  have split := List.take_append_drop j (stream.take k)
  rw [front] at split
  rw [← split, bytes_append]
  exact Nat.le_add_right _ _

/-- Instructions of at least an octet each are not more than their octets. -/
theorem le_bytes_take (stream : List InstructionPacket)
    (sized : ∀ p ∈ stream, 0 < p.staticInfo.instSize.toNat) {k : Nat} (inside : k ≤ stream.length) :
    k ≤ bytes (stream.take k) := by
  induction stream generalizing k with
  | nil => exact Nat.le_trans inside (Nat.zero_le _)
  | cons p stream ih =>
    cases k with
    | zero => exact Nat.zero_le _
    | succ k =>
      have first := sized p (List.mem_cons_self ..)
      have rest := ih (fun q member => sized q (List.mem_cons_of_mem p member))
        (Nat.le_of_succ_le_succ inside)
      rw [List.take_succ_cons, bytes_cons]
      omega

/-- What the loop of `Fetch` takes for a sum of `n` octets. -/
def weightOf (n : Nat) : Int := (BitVec.ofNat 64 n).toInt

theorem addWeight_weightOf (n : Nat) (size : BitVec 64) :
    Engine.addWeight (weightOf n) size = weightOf (n + size.toNat) := by
  have same : BitVec.ofNat 64 n + size = BitVec.ofNat 64 (n + size.toNat) := by
    apply BitVec.eq_of_toNat_eq
    simp [BitVec.toNat_add]
  rw [Engine.addWeight, weightOf, BitVec.ofInt_toInt, same, weightOf]

theorem weightOf_eq {n : Nat} (fits : n < 9223372036854775808) : weightOf n = n := by
  unfold weightOf
  rw [BitVec.toInt_eq_toNat_of_lt (by rw [BitVec.toNat_ofNat]; omega), BitVec.toNat_ofNat]
  omega

/-- A sum past the range of a `long` by less than what a single instruction adds is
taken for less than the request. -/
theorem weightOf_lt {n request : Nat} (long : request < 9223372036854775808)
    (wraps : 9223372036854775808 ≤ n) (near : n < request + 18446744073709551616) :
    weightOf n < request := by
  unfold weightOf
  rw [BitVec.toInt_eq_toNat_bmod, BitVec.toNat_ofNat]
  simp only [Int.bmod_def]
  omega

section Loop

variable (R : TraceReader ρ) (id : Nat)

/-- There is room for `n` more responses. -/
def Room (c : FetchConnection) (n : Nat) : Prop :=
  c.bufferSize ≠ 0 → c.sentResponses.length + n ≤ c.bufferSize

/-- With room for it the buffered instruction is delivered, whatever the reader answers. -/
theorem sendBufferedAndFetch_delivers (e : Engine ρ) {n : Nat}
    (room : Room (e.connections id) (n + 1)) :
    ∃ (stops : Bool) (e' : Engine ρ) (events : List EngineEvent) (sent : InstructionPacket),
      e.sendBufferedAndFetch R id = (stops, e', events) ∧
      ((R.fetch e.traceReader (e.fetchBuffers id) id).1 = .ok → stops = false) ∧
      delivered id events = [sent] ∧ sent.instruction = (e.fetchBuffers id).instruction ∧
      e'.fetchBuffers id = (R.fetch e.traceReader (e.fetchBuffers id) id).2.1 ∧
      e'.traceReader = (R.fetch e.traceReader (e.fetchBuffers id) id).2.2 ∧
      Room (e'.connections id) n := by
  let toSend : InstructionPacket :=
    { e.fetchBuffers id with
      nextInstruction := (R.fetch e.traceReader (e.fetchBuffers id) id).2.1.staticInfo.instAddress }
  unfold Engine.sendBufferedAndFetch Engine.sendResponseToConnection
  rcases (e.connections id).sendResponse_eq toSend with
    ⟨_, bounded, full⟩ | ⟨c', sent, views, _⟩
  · have left := room (Nat.ne_of_gt bounded)
    omega
  · have room' : Room c' n := by
      intro bounded
      rw [views.bufferSize] at bounded ⊢
      have left := room bounded
      rw [views.sentResponses, List.length_append, List.length_singleton]
      omega
    dsimp only [toSend] at sent ⊢
    rw [sent]
    cases (R.fetch e.traceReader (e.fetchBuffers id) id).1 <;>
      exact ⟨_, _, _, toSend, rfl, by simp, by simp [delivered, toSend], rfl,
        by simp [Engine.setConnection], rfl, by simpa [Engine.setConnection] using room'⟩

/-- An iteration of the loop that the reader answers with `ok`. -/
theorem fetchLoop_ok (request bound : Nat) (weight : Int) (e : Engine ρ) {n : Nat}
    {q : InstructionPacket} {qs : List InstructionPacket}
    (below : weight < request) (room : Room (e.connections id) (n + 1))
    (supplies : Supplies R id e.traceReader (e.fetchBuffers id) (q :: qs)) :
    ∃ (e' : Engine ρ) (sent : InstructionPacket),
      Supplies R id e'.traceReader (e'.fetchBuffers id) qs ∧ e'.fetchBuffers id = q ∧
      sent.instruction = (e.fetchBuffers id).instruction ∧ Room (e'.connections id) n ∧
      (e.fetchLoop R id request (bound + 1) weight).1 =
        (e'.fetchLoop R id request bound (Engine.addWeight weight q.staticInfo.instSize)).1 ∧
      delivered id (e.fetchLoop R id request (bound + 1) weight).2 = sent ::
        delivered id
          (e'.fetchLoop R id request bound (Engine.addWeight weight q.staticInfo.instSize)).2 := by
  obtain ⟨ok, next, later⟩ := supplies
  obtain ⟨stops, e', events, sent, result, goes, out, same, buffer, reader, room'⟩ :=
    sendBufferedAndFetch_delivers R id e room
  rw [goes ok] at result
  rw [next] at buffer
  refine ⟨e', sent, ?_, buffer, same, room', ?_, ?_⟩
  · rw [reader, buffer]
    exact later
  · rw [Engine.fetchLoop, if_pos below, result]
    dsimp only
    rw [buffer]
  · rw [Engine.fetchLoop, if_pos below, result]
    dsimp only
    rw [buffer]
    simp [delivered_append, out]

/-- As long as the octets stay below the request the loop sends the stream; `before` is
what it has counted for the instructions already sent. -/
theorem fetchLoop_sends_stream (request : Nat) (long : request < 9223372036854775808)
    (k before bound : Nat) (e : Engine ρ) (p : InstructionPacket) (ps : List InstructionPacket)
    (buffered : e.fetchBuffers id = p)
    (supplies : Supplies R id e.traceReader p ps) (room : Room (e.connections id) (p :: ps).length)
    (inside : k < (p :: ps).length)
    (below : ∀ j ≤ k, before + bytes ((p :: ps).take j) < request)
    (reached : request ≤ before + bytes ((p :: ps).take (k + 1))) (enough : k < bound) :
    let after := e.fetchLoop R id request bound (weightOf (before + p.staticInfo.instSize.toNat))
    (before + bytes ((p :: ps).take (k + 1)) < 9223372036854775808 →
      (delivered id after.2).map (·.instruction) = ((p :: ps).take k).map (·.instruction) ∧
      (p :: ps)[k]? = some (after.1.fetchBuffers id)) ∧
    (9223372036854775808 ≤ before + bytes ((p :: ps).take (k + 1)) →
      k < (delivered id after.2).length) := by
  obtain ⟨bound, rfl⟩ := Nat.exists_eq_succ_of_ne_zero (Nat.ne_of_gt (Nat.lt_of_le_of_lt
    (Nat.zero_le k) enough))
  induction k generalizing before bound e p ps with
  | zero =>
    have start := below 0 (Nat.le_refl 0)
    simp only [List.take_succ_cons, List.take_zero, bytes_cons, bytes_nil, Nat.add_zero]
      at reached start ⊢
    refine ⟨fun fits => ?_, fun wraps => ?_⟩
    · have stops : ¬ weightOf (before + p.staticInfo.instSize.toNat) < (request : Int) := by
        rw [weightOf_eq fits]
        omega
      rw [Engine.fetchLoop, if_neg stops]
      exact ⟨rfl, by rw [buffered]; rfl⟩
    · have size := p.staticInfo.instSize.isLt
      have goes := weightOf_lt long wraps (by omega)
      obtain ⟨stops, e', events, sent, result, _, out, _⟩ :=
        sendBufferedAndFetch_delivers R id e (n := ps.length) room
      rw [Engine.fetchLoop, if_pos goes, result]
      cases stops <;> simp [delivered_append, out]
  | succ k ih =>
    cases ps with
    | nil =>
      simp only [List.length_singleton] at inside
      omega
    | cons q qs =>
      have first := below 1 (Nat.succ_le_succ (Nat.zero_le k))
      simp only [List.take_succ_cons, List.take_zero, bytes_cons, bytes_nil, Nat.add_zero] at first
      have goes : weightOf (before + p.staticInfo.instSize.toNat) < (request : Int) := by
        rw [weightOf_eq (by omega)]
        omega
      have supplies' : Supplies R id e.traceReader (e.fetchBuffers id) (q :: qs) := by
        rw [buffered]
        exact supplies
      obtain ⟨e', sent, later, buffer, same, room', state, log⟩ :=
        fetchLoop_ok R id request bound _ e goes room supplies'
      rw [addWeight_weightOf] at state log
      rw [buffer] at later
      obtain ⟨bound, rfl⟩ := Nat.exists_eq_succ_of_ne_zero (Nat.ne_of_gt (Nat.lt_of_le_of_lt
        (Nat.zero_le k) (Nat.lt_of_succ_lt_succ enough)))
      have shift : ∀ j, before + bytes ((p :: q :: qs).take (j + 1)) =
          before + p.staticInfo.instSize.toNat + bytes ((q :: qs).take j) := by
        intro j
        rw [List.take_succ_cons, bytes_cons, Nat.add_assoc]
      have rest := ih (before + p.staticInfo.instSize.toNat) e' q qs buffer later room'
        (Nat.lt_of_succ_lt_succ inside)
        (fun j le => by rw [← shift]; exact below (j + 1) (Nat.succ_le_succ le))
        (by rw [← shift]; exact reached) bound (Nat.lt_of_succ_lt_succ enough)
      dsimp only at rest ⊢
      rw [shift, state, log]
      refine ⟨fun fits => ?_, fun wraps => ?_⟩
      · obtain ⟨sentLater, nextLater⟩ := rest.1 fits
        rw [List.map_cons, sentLater, same, buffered, List.take_succ_cons, List.map_cons]
        exact ⟨rfl, nextLater⟩
      · have more := rest.2 wraps
        rw [List.length_cons]
        omega

end Loop

/-- For every reader, every request and every stream of instructions long enough to fill
it, on a connection with room for them: the engine delivers the longest prefix of at most
the octets asked for, and buffers the next instruction, if and only if the first
instructions that come to that amount come to more, within the range of a `long`. -/
theorem engine_fills_greedily (R : TraceReader ρ) (id request : Nat) (e : Engine ρ)
    (ps : List InstructionPacket) (positive : 0 < request) (long : request < 9223372036854775808)
    (supplies : Supplies R id e.traceReader (e.fetchBuffers id) ps)
    (sized : ∀ p ∈ e.fetchBuffers id :: ps, 0 < p.staticInfo.instSize.toNat)
    (enough : request < bytes (e.fetchBuffers id :: ps))
    (room : Room (e.connections id) (e.fetchBuffers id :: ps).length)
    (bound : Nat) (iterations : request ≤ bound) :
    FillsGreedily request (e.fetchBuffers id :: ps) (delivered id (e.fetch R bound id request).2)
        ((e.fetch R bound id request).1.fetchBuffers id) ↔
      ReachesOver request (e.fetchBuffers id :: ps) := by
  generalize stream : e.fetchBuffers id :: ps = all at *
  have reaches : ∃ k, request ≤ bytes (all.take k) :=
    ⟨all.length, by rw [List.take_length]; exact Nat.le_of_lt enough⟩
  -- The shortest prefix that reaches the request decides both sides.
  obtain ⟨k, reached, below⟩ : ∃ k, request ≤ bytes (all.take (k + 1)) ∧
      ∀ j ≤ k, bytes (all.take j) < request := by
    classical
    have least := Nat.find_spec reaches
    have smaller : ∀ j < Nat.find reaches, bytes (all.take j) < request :=
      fun j less => Nat.lt_of_not_le (Nat.find_min reaches less)
    rcases found : Nat.find reaches with _ | k
    · rw [found, List.take_zero, bytes_nil] at least
      omega
    · rw [found] at least smaller
      exact ⟨k, least, fun j le => smaller j (Nat.lt_succ_of_le le)⟩
  have inside : k < all.length := by
    by_contra past
    have whole := below k (Nat.le_refl k)
    rw [List.take_of_length_le (Nat.le_of_not_lt past)] at whole
    omega
  have few : k < request :=
    Nat.lt_of_le_of_lt (le_bytes_take all sized (Nat.le_of_lt inside)) (below k (Nat.le_refl k))
  have shortest : ReachesOver request all ↔
      request < bytes (all.take (k + 1)) ∧ bytes (all.take (k + 1)) < 9223372036854775808 := by
    constructor
    · intro reaching
      exact reaching (k + 1) (fun j less => below j (Nat.le_of_lt_succ less)) reached
    · intro reaching j belowJ reachedJ
      have same : j = k + 1 := by
        apply Nat.le_antisymm
        · by_contra past
          exact absurd reached (Nat.not_le_of_lt (belowJ (k + 1) (Nat.lt_of_not_le past)))
        · by_contra short
          exact absurd reachedJ (Nat.not_le_of_lt (below j (by omega)))
      rw [same]
      exact reaching
  obtain ⟨fits, wraps⟩ := fetchLoop_sends_stream R id request long k 0 bound e
    (e.fetchBuffers id) ps rfl supplies (by rw [stream]; exact room) (by rw [stream]; exact inside)
    (by rw [stream]; simpa using below) (by rw [stream]; simpa using reached) (by omega)
  rw [Nat.zero_add, Nat.zero_add, stream] at fits wraps
  have loop : e.fetch R bound id request =
      e.fetchLoop R id request bound (weightOf (e.fetchBuffers id).staticInfo.instSize.toNat) := by
    have weight : weightOf (e.fetchBuffers id).staticInfo.instSize.toNat =
        (e.fetchBuffers id).staticInfo.instSize.toInt := by
      rw [weightOf, BitVec.ofNat_toNat, BitVec.setWidth_eq]
    rw [Engine.fetch, if_neg (by omega), weight]
  rw [loop, shortest]
  constructor
  · rintro ⟨m, sent, next, within, longest⟩
    have count := congrArg List.length sent
    rw [List.length_map, List.length_map, List.length_take] at count
    have small : bytes (all.take (k + 1)) < 9223372036854775808 := by
      by_contra large
      have more := wraps (Nat.le_of_not_lt large)
      have prefixes := bytes_take_mono all (show k + 1 ≤ m by omega)
      omega
    obtain ⟨sent', _⟩ := fits small
    have count' := congrArg List.length sent'
    rw [List.length_map, List.length_map, List.length_take] at count'
    refine ⟨?_, small⟩
    by_contra exact_
    have last := longest (k + 1) inside (Nat.le_of_not_lt exact_)
    have bufferedInside := (List.getElem?_eq_some_iff.mp next).1
    omega
  · rintro ⟨reaching, small⟩
    obtain ⟨sent, next⟩ := fits small
    refine ⟨k, sent, next, Nat.le_of_lt (below k (Nat.le_refl k)), fun j _ within => ?_⟩
    by_contra past
    have prefixes := bytes_take_mono all (show k + 1 ≤ j by omega)
    omega

/-- A block of three instructions of four octets. -/
def threeWords : StaticDictionary where
  blocks := [[{ instSize := 4 }, { instAddress := 4, instSize := 4 },
    { instAddress := 8, instSize := 4 }]]
  nonempty := by simp
  size_lt := by simp

/-- The engine set up on a thread that executes the block, for one core. -/
def threeWordsEngine : Engine SinucaTraceReader :=
  (Engine.setupSimulation sinucaTraceReader
    (.openTrace threeWords [{ dynamic := [.basicBlock 0], memory := [] }] fun _ => 0)
    (fun _ => {}) (fun _ => .connect 0) 1).2.1

/-- What is left of the block once the first instruction is buffered. -/
def laterWords : List InstructionPacket :=
  [{ staticInfo := { instAddress := 4, instSize := 4 } },
    { staticInfo := { instAddress := 8, instSize := 4 } }]

theorem threeWordsEngine_supplies : Supplies sinucaTraceReader 0 threeWordsEngine.traceReader
    (threeWordsEngine.fetchBuffers 0) laterWords :=
  ⟨by decide +kernel, by decide +kernel, by decide +kernel, by decide +kernel, trivial⟩

/-- Seven octets are asked for, and one instruction is sent. -/
theorem engine_fills_greedily_seven :
    FillsGreedily 7 (threeWordsEngine.fetchBuffers 0 :: laterWords)
      (delivered 0 (threeWordsEngine.fetch sinucaTraceReader 7 0 7).2)
      ((threeWordsEngine.fetch sinucaTraceReader 7 0 7).1.fetchBuffers 0) := by
  refine (engine_fills_greedily sinucaTraceReader 0 7 threeWordsEngine laterWords (by decide)
    (by decide) threeWordsEngine_supplies (by decide +kernel) (by decide +kernel)
    (fun bounded => absurd rfl bounded) 7 (Nat.le_refl 7)).mpr ?_
  intro k below reached
  match k with
  | 0 => exact absurd reached (by decide +kernel)
  | 1 => exact absurd reached (by decide +kernel)
  | 2 => exact ⟨by decide +kernel, by decide +kernel⟩
  | k + 3 => exact absurd (below 2 (by omega)) (by decide +kernel)

/-- Eight octets are asked for, which two instructions have, and one is sent. -/
theorem engine_stops_short :
    Supplies sinucaTraceReader 0 threeWordsEngine.traceReader (threeWordsEngine.fetchBuffers 0)
      laterWords ∧
    (∀ p ∈ threeWordsEngine.fetchBuffers 0 :: laterWords, 0 < p.staticInfo.instSize.toNat) ∧
    8 < bytes (threeWordsEngine.fetchBuffers 0 :: laterWords) ∧
    Room (threeWordsEngine.connections 0) 3 ∧
    ¬ FillsGreedily 8 (threeWordsEngine.fetchBuffers 0 :: laterWords)
      (delivered 0 (threeWordsEngine.fetch sinucaTraceReader 8 0 8).2)
      ((threeWordsEngine.fetch sinucaTraceReader 8 0 8).1.fetchBuffers 0) := by
  refine ⟨threeWordsEngine_supplies, by decide +kernel, by decide +kernel,
    fun bounded => absurd rfl bounded, ?_⟩
  rintro ⟨k, sent, _, _, longest⟩
  have both : 2 ≤ k := longest 2 (by decide) (by decide +kernel)
  have one : (delivered 0 (threeWordsEngine.fetch sinucaTraceReader 8 0 8).2).length = 1 := by
    decide +kernel
  have count := congrArg List.length sent
  rw [List.length_map, List.length_map, List.length_take, one] at count
  simp only [laterWords, List.length_cons, List.length_nil] at count
  omega

end Sinuca3.Guarantees
