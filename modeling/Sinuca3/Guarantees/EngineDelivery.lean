import Mathlib.Data.List.Basic
import Sinuca3.Source.Engine.EngineRuns
import Sinuca3.Source.Tracer.Replay

/-!
# Delivery by the engine

The engine keeps one instruction of look-ahead for each core: it sends the
buffered one as it fetches the next. As long as the reader answers every call for
a core with an instruction, but perhaps for a last call that ends the trace, the
core receives the reader's instructions in order, each once, each with the address
of its successor. An answer without an instruction is not told apart from one
with: the engine then sends the buffered instruction again.
-/
namespace Sinuca3.Guarantees
open Sinuca3.Source Lib

/-- The reader's answers to the calls made for core `i`. -/
def answers (i : Nat) (log : List EngineEvent) : List FetchResult :=
  log.filterMap fun
    | .fetched id r _ => if id = i then some r else none
    | _ => none

/-- The instructions the reader returned for core `i`. -/
def returned (i : Nat) (log : List EngineEvent) : List InstructionPacket :=
  log.filterMap fun
    | .fetched id r p => if id = i ∧ r = .ok then some p else none
    | _ => none

/-- What the engine tried to put on the response connection of core `i`; `delivered`
is what it did put there. -/
def offered (i : Nat) (log : List EngineEvent) : List InstructionPacket :=
  log.filterMap fun
    | .sent id p _ => if id = i then some p else none
    | _ => none

/-- What a full response buffer refused. -/
def dropped (i : Nat) (log : List EngineEvent) : List InstructionPacket :=
  log.filterMap fun
    | .sent id p accepted => if id = i ∧ accepted = false then some p else none
    | _ => none

/-- No answer was a `nop`, and no call followed an answer that ended the trace. -/
def Undisturbed (rs : List FetchResult) : Prop :=
  (∀ r ∈ rs.dropLast, r = .ok) ∧ FetchResult.nop ∉ rs

/-- Each packet carries the address of the instruction that follows it. -/
def Linked (sent instructions : List InstructionPacket) : Prop :=
  ∀ k p q, sent[k]? = some p → instructions[k + 1]? = some q →
    p.nextInstruction = q.staticInfo.instAddress

/-- Exactly once, in order: what core `i` received is what the reader returned for
it, up to the look-ahead. -/
def DeliveredInOrder (i : Nat) (log : List EngineEvent) : Prop :=
  (delivered i log).map InstructionPacket.instruction <+:
      (returned i log).map InstructionPacket.instruction ∧
    Linked (delivered i log) (returned i log)

/-- The look-ahead of core `i`: the instructions offered and then the buffered one
are those returned, while every answer was an instruction. -/
structure Lookahead (i : Nat) (buffer : InstructionPacket) (log : List EngineEvent) : Prop where
  ahead : (∀ r ∈ answers i log, r = .ok) →
    (offered i log).map InstructionPacket.instruction ++ [buffer.instruction] =
      (returned i log).map InstructionPacket.instruction
  inOrder : Undisturbed (answers i log) →
    (offered i log).map InstructionPacket.instruction <+:
      (returned i log).map InstructionPacket.instruction
  linked : Undisturbed (answers i log) → Linked (offered i log) (returned i log)

theorem undisturbed_concat (rs : List FetchResult) (r : FetchResult) :
    Undisturbed (rs ++ [r]) ↔ (∀ a ∈ rs, a = .ok) ∧ r ≠ .nop := by
  unfold Undisturbed
  rw [List.dropLast_concat]
  constructor
  · rintro ⟨allOk, noNop⟩
    exact ⟨allOk, fun isNop => noNop (by simp [isNop])⟩
  · rintro ⟨allOk, notNop⟩
    constructor
    · exact allOk
    · intro found
      rcases List.mem_append.mp found with old | new
      · cases allOk _ old
      · exact notNop (List.mem_singleton.mp new).symm

theorem undisturbed_of_ok (rs : List FetchResult) (allOk : ∀ r ∈ rs, r = .ok) :
    Undisturbed rs := by
  constructor
  · intro r found
    exact allOk r (List.dropLast_subset rs found)
  · intro found
    cases allOk _ found

/-- One more packet, carrying the address of the instruction that comes next. -/
theorem Linked.concat {sent instructions : List InstructionPacket} {p : InstructionPacket}
    (before : Linked sent instructions) (length : instructions.length = sent.length + 1)
    (more : List InstructionPacket)
    (next : ∀ q, more.head? = some q → p.nextInstruction = q.staticInfo.instAddress) :
    Linked (sent ++ [p]) (instructions ++ more) := by
  intro k p' q here there
  rcases Nat.lt_trichotomy k sent.length with inside | last | beyond
  · rw [List.getElem?_append_left inside] at here
    rw [List.getElem?_append_left (by omega)] at there
    exact before k p' q here there
  · subst last
    rw [List.getElem?_append_right (Nat.le_refl _), Nat.sub_self] at here
    rw [List.getElem?_append_right (by omega), length, Nat.sub_self] at there
    cases here
    apply next
    rw [List.head?_eq_getElem?]
    exact there
  · rw [List.getElem?_eq_none (by simp; omega)] at here
    cases here

/-- The look-ahead over one call of the reader and the send that goes with it. -/
theorem Lookahead.concat {i : Nat} {buffer : InstructionPacket} {log : List EngineEvent}
    (before : Lookahead i buffer log) (r : FetchResult) (p : InstructionPacket)
    (accepted : Bool) :
    Lookahead i p (log ++ [.fetched i r p,
      .sent i { buffer with nextInstruction := p.staticInfo.instAddress } accepted]) := by
  have asked : answers i (log ++ [.fetched i r p,
      .sent i { buffer with nextInstruction := p.staticInfo.instAddress } accepted]) =
      answers i log ++ [r] := by simp [answers]
  have sent : offered i (log ++ [.fetched i r p,
      .sent i { buffer with nextInstruction := p.staticInfo.instAddress } accepted]) =
      offered i log ++ [{ buffer with nextInstruction := p.staticInfo.instAddress }] := by
    simp [offered]
  have got : returned i (log ++ [.fetched i r p,
      .sent i { buffer with nextInstruction := p.staticInfo.instAddress } accepted]) =
      returned i log ++ if r = .ok then [p] else [] := by
    by_cases ok : r = .ok <;> simp [returned, ok]
  have all : (∀ a ∈ answers i log, a = .ok) →
      (offered i log ++ [{ buffer with nextInstruction := p.staticInfo.instAddress }]).map
        InstructionPacket.instruction = (returned i log).map InstructionPacket.instruction := by
    intro allOk
    rw [← before.ahead allOk, List.map_append]
    rfl
  constructor
  · rw [asked, sent, got]
    intro allOk
    have ok : r = .ok := allOk r (by simp)
    rw [all fun a old => allOk a (List.mem_append_left _ old), if_pos ok, List.map_append]
    rfl
  · rw [asked, sent, got, undisturbed_concat]
    rintro ⟨allOk, _⟩
    rw [all allOk, List.map_append]
    exact List.prefix_append _ _
  · rw [asked, sent, got, undisturbed_concat]
    rintro ⟨allOk, _⟩
    apply (before.linked (undisturbed_of_ok _ allOk)).concat
    · have lengths := congrArg List.length (before.ahead allOk)
      simpa using lengths.symm
    · intro q first
      split at first
      · cases first
        rfl
      · cases first

/-- Events of the other cores leave the look-ahead alone. -/
theorem Lookahead.other {i : Nat} {buffer : InstructionPacket} {log : List EngineEvent}
    (before : Lookahead i buffer log) {id : Nat} (different : id ≠ i) (r : FetchResult)
    (p toSend : InstructionPacket) (accepted : Bool) :
    Lookahead i buffer (log ++ [.fetched id r p, .sent id toSend accepted]) := by
  have asked : answers i (log ++ [.fetched id r p, .sent id toSend accepted]) = answers i log := by
    simp [answers, different]
  have sent : offered i (log ++ [.fetched id r p, .sent id toSend accepted]) = offered i log := by
    simp [offered, different]
  have got : returned i (log ++ [.fetched id r p, .sent id toSend accepted]) =
      returned i log := by simp [returned, different]
  constructor <;> rw [asked, sent, got]
  · exact before.ahead
  · exact before.inOrder
  · exact before.linked

section Runs

variable {ρ : Type} (R : TraceReader ρ)

/-- From engine `e`, these effects keep the look-ahead of core `i` whatever the
log so far. -/
def KeepsLookahead (i : Nat) (e : Engine ρ) (after : Engine ρ × List EngineEvent) : Prop :=
  ∀ log, Lookahead i (e.fetchBuffers i) log →
    Lookahead i (after.1.fetchBuffers i) (log ++ after.2)

theorem sendBufferedAndFetch_keeps (i : Nat) (e : Engine ρ) (id : Nat) :
    KeepsLookahead i e (e.sendBufferedAndFetch R id).2 := by
  obtain ⟨e', accepted, result, buffers, _⟩ := e.sendBufferedAndFetch_eq R id
  rw [result]
  intro log before
  dsimp only
  rw [buffers]
  by_cases same : id = i
  · subst same
    rw [Function.update_self]
    exact before.concat _ _ _
  · rw [Function.update_of_ne (Ne.symm same)]
    exact before.other same _ _ _ _

/-- So every core's look-ahead is kept by every run. -/
theorem keptByCalls_lookahead (i : Nat) :
    Engine.KeptByCalls R fun e log => Lookahead i (e.fetchBuffers i) log :=
  ⟨fun _ _ _ before => before, fun e log id before => sendBufferedAndFetch_keeps R i e id log before⟩

/-- The first instruction of core `i`, buffered by the set-up, and nothing sent. -/
structure Primed (i : Nat) (buffer : InstructionPacket) (log : List EngineEvent) : Prop where
  answered : answers i log = [.ok]
  first : returned i log = [buffer]
  silent : offered i log = []

theorem Primed.lookahead {i : Nat} {buffer : InstructionPacket} {log : List EngineEvent}
    (primed : Primed i buffer log) : Lookahead i buffer log := by
  constructor
  · intro _
    rw [primed.first, primed.silent]
    rfl
  · intro _
    rw [primed.silent]
    exact List.nil_prefix
  · intro _ k p q here
    rw [primed.silent] at here
    cases here

/-- A successful set-up primes the cores it goes over and leaves the others. -/
theorem setupLoop_primes (ids : List Nat) (distinct : ids.Nodup) (e e' : Engine ρ)
    (log : List EngineEvent) (success : Engine.setupLoop R ids e = (false, e', log)) :
    (∀ i ∈ ids, Primed i (e'.fetchBuffers i) log) ∧
    ∀ i, i ∉ ids → e'.fetchBuffers i = e.fetchBuffers i ∧ answers i log = [] ∧
      returned i log = [] ∧ offered i log = [] := by
  induction ids generalizing e log with
  | nil =>
    cases success
    constructor
    · intro i member
      cases member
    · intro i _
      exact ⟨rfl, rfl, rfl, rfl⟩
  | cons id ids ih =>
    obtain ⟨fresh, distinct'⟩ := List.nodup_cons.mp distinct
    unfold Engine.setupLoop at success
    dsimp only at success
    split at success
    · cases success
    rename_i ok
    rw [ne_eq, not_not] at ok
    rcases later : Engine.setupLoop R ids _ with ⟨failed, e'', events⟩
    rw [later] at success
    cases success
    obtain ⟨primed, others⟩ := ih distinct' _ _ later
    constructor
    · intro i member
      rcases List.mem_cons.mp member with rfl | member
      · obtain ⟨buffer, asked, got, sent⟩ := others i fresh
        dsimp only at buffer ⊢
        rw [buffer, Function.update_self]
        constructor
        · simpa [answers, ok] using asked
        · simpa [returned, ok] using got
        · simpa [offered] using sent
      · have different : id ≠ i := by
          rintro rfl
          exact fresh member
        obtain ⟨asked, got, sent⟩ := primed i member
        constructor
        · simpa [answers, different] using asked
        · simpa [returned, different] using got
        · simpa [offered] using sent
    · intro i outside
      rw [List.mem_cons, not_or] at outside
      obtain ⟨buffer, asked, got, sent⟩ := others i outside.2
      dsimp only at buffer ⊢
      rw [buffer, Function.update_of_ne outside.1]
      refine ⟨rfl, ?_, ?_, ?_⟩
      · simpa [answers, Ne.symm outside.1] using asked
      · simpa [returned, Ne.symm outside.1] using got
      · simpa [offered] using sent

/-- Where the response buffer of core `i` never fills, what was offered was
delivered. -/
theorem delivered_eq_offered (i : Nat) (log : List EngineEvent)
    (neverFull : dropped i log = []) : delivered i log = offered i log := by
  apply List.filterMap_congr
  intro event member
  cases event with
  | fetched => rfl
  | sent id p accepted =>
    have kept := List.filterMap_eq_nil_iff.mp neverFull _ member
    cases accepted with
    | true => simp
    | false => simpa using kept

/-- The set-up and the run of an engine, as one log. -/
def engineLog (bound : Nat) (reader : ρ) (garbage : Nat → InstructionPacket)
    (connections : Nat → FetchConnection) (cores : Nat) (ops : List Engine.Op) :
    List EngineEvent :=
  let setup := Engine.setupSimulation R reader garbage connections cores
  setup.2.2 ++ (Machine.run (Engine.step R bound) setup.2.1 ops).2

/-- For every reader, every number of cores and every run after a successful
set-up, a core whose response buffer never fills and whose reader calls were
undisturbed received exactly what the reader returned for it, in order. -/
theorem engine_delivers_in_order (bound : Nat) (reader : ρ)
    (garbage : Nat → InstructionPacket) (connections : Nat → FetchConnection) (cores : Nat)
    (success : (Engine.setupSimulation R reader garbage connections cores).1 = false)
    (ops : List Engine.Op) (i : Nat) (core : i < cores)
    (neverFull : dropped i (engineLog R bound reader garbage connections cores ops) = [])
    (undisturbed :
      Undisturbed (answers i (engineLog R bound reader garbage connections cores ops))) :
    DeliveredInOrder i (engineLog R bound reader garbage connections cores ops) := by
  rcases setup : Engine.setupSimulation R reader garbage connections cores with ⟨failed, e, log⟩
  rw [setup] at success
  cases success
  have primed := (setupLoop_primes R _ List.nodup_range _ _ _ setup).1 i (List.mem_range.mpr core)
  have whole : Lookahead i ((Machine.run (Engine.step R bound) e ops).1.fetchBuffers i)
      (log ++ (Machine.run (Engine.step R bound) e ops).2) :=
    (keptByCalls_lookahead R i).run bound e ops log primed.lookahead
  have same : engineLog R bound reader garbage connections cores ops =
      log ++ (Machine.run (Engine.step R bound) e ops).2 := by
    unfold engineLog
    rw [setup]
  rw [same] at undisturbed neverFull ⊢
  unfold DeliveredInOrder
  rw [delivered_eq_offered i _ neverFull]
  exact ⟨whole.inOrder undisturbed, whole.linked undisturbed⟩

end Runs

/-- A block of two instructions and one of a single instruction. -/
def twoBlocks : StaticDictionary where
  blocks := [[{ instAddress := 16, instSize := 4 }, { instAddress := 20, instSize := 2 }],
    [{ instAddress := 32, instSize := 5 }]]
  nonempty := by simp
  size_lt := by simp

/-- Both cores, connected without a limit. -/
def twoCoreLog (d : StaticDictionary) (threads : List ThreadFiles) (ops : List Engine.Op) :
    List EngineEvent :=
  engineLog sinucaTraceReader 8 (.openTrace d threads fun _ => 0) (fun _ => {})
    (fun _ => .createBuffers 0) 2 ops

/-- Two threads through `twoBlocks` while the cores ask in turn. -/
def twoThreadLog : List EngineEvent :=
  twoCoreLog twoBlocks
    [{ dynamic := [.basicBlock 0, .basicBlock 1, .basicBlock 0], memory := [] },
      { dynamic := [.basicBlock 1, .basicBlock 0, .basicBlock 1], memory := [] }]
    [.sendRequest 0 9, .sendRequest 1 6, .posClock, .clock,
      .sendRequest 1 7, .sendRequest 0 0, .posClock, .clock]

/-- Each core receives three instructions of its own thread. -/
theorem engine_delivers_in_order_two_threads :
    ((delivered 0 twoThreadLog).map (·.staticInfo.instAddress) = [16, 20, 32] ∧
      DeliveredInOrder 0 twoThreadLog) ∧
    (delivered 1 twoThreadLog).map (·.staticInfo.instAddress) = [32, 16, 20] ∧
      DeliveredInOrder 1 twoThreadLog := by
  refine ⟨⟨by decide +kernel, ?_⟩, by decide +kernel, ?_⟩
  · exact engine_delivers_in_order sinucaTraceReader 8 _ _ _ 2 (by decide +kernel) _ 0 (by decide)
      (List.eq_nil_of_length_eq_zero (by decide +kernel)) ⟨by decide +kernel, by decide +kernel⟩
  · exact engine_delivers_in_order sinucaTraceReader 8 _ _ _ 2 (by decide +kernel) _ 1 (by decide)
      (List.eq_nil_of_length_eq_zero (by decide +kernel)) ⟨by decide +kernel, by decide +kernel⟩

/-- Thread 1 meets a barrier after its first instruction, and thread 0 does not
come. -/
def lonelyBarrier : List ThreadFiles :=
  [{ dynamic := [.basicBlock 0, .basicBlock 0], memory := [] },
    { dynamic := [.basicBlock 0, .threadEvent 0, .basicBlock 0], memory := [] }]

/-- A core asks for one instruction at a time. -/
def requestTwice (i : Nat) : List Engine.Op :=
  [.sendRequest i 0, .posClock, .clock, .sendRequest i 0, .posClock, .clock]

/-- The second request finds thread 1 asleep, and the engine sends its first
instruction again. -/
theorem engine_repeats_instruction :
    (Engine.setupSimulation sinucaTraceReader (.openTrace oneInstruction lonelyBarrier fun _ => 0)
      (fun _ => {}) (fun _ => .createBuffers 0) 2).1 = false ∧
    dropped 1 (twoCoreLog oneInstruction lonelyBarrier (requestTwice 1)) = [] ∧
    ¬ DeliveredInOrder 1 (twoCoreLog oneInstruction lonelyBarrier (requestTwice 1)) := by
  refine ⟨by decide +kernel, List.eq_nil_of_length_eq_zero (by decide +kernel), ?_⟩
  rintro ⟨inOrder, _⟩
  have shorter := inOrder.length_le
  revert shorter
  decide +kernel

end Sinuca3.Guarantees
