import Mathlib.Data.List.ReduceOption
import Sinuca3.Guarantees.BufferSizes
import Sinuca3.Source.StdComponents.GsharePredictor

/-!
# The entries a gshare predictor uses

`Configure` never calls `RoundNumberOfEntries`: the table has as many entries as were
asked for, and with no index bits the mask is zero and every query reads the first.

It does not check what the size of the index queue is as an `int` either. `QueueInside`
says that a run does not write outside the queue.
-/
namespace Sinuca3.Guarantees
open Sinuca3.Source Lib

section Logs

variable (log more : List GshareEvent)

/-- The index each query reads. -/
def queriedIndices : List (BitVec 64) :=
  log.filterMap fun
    | .queried _ _ index _ => some index
    | _ => none

/-- The indices that went to the queue. -/
def queuedIndices : List (BitVec 64) :=
  log.filterMap fun
    | .queried _ _ index queued => if queued = true then some index else none
    | _ => none

/-- What each update trains, if anything. -/
def updatedIndices : List (Option (BitVec 64)) :=
  log.filterMap fun
    | .updated index => some index
    | _ => none

@[simp] theorem queriedIndices_append :
    queriedIndices (log ++ more) = queriedIndices log ++ queriedIndices more :=
  List.filterMap_append

@[simp] theorem queuedIndices_append :
    queuedIndices (log ++ more) = queuedIndices log ++ queuedIndices more :=
  List.filterMap_append

@[simp] theorem updatedIndices_append :
    updatedIndices (log ++ more) = updatedIndices log ++ updatedIndices more :=
  List.filterMap_append

end Logs

/-- The entry that the documentation gives for a table of at most `numberOfEntries`. -/
def documentedIndex (numberOfEntries : Nat) (history address : BitVec 64) : Nat :=
  (history ^^^ address).toNat % 2 ^ numberOfEntries.log2

/-- The documented entries of the queries whose index went to the queue. -/
def documentedIndices (numberOfEntries : Nat) (log : List GshareEvent) : List Nat :=
  log.filterMap fun
    | .queried history address _ queued =>
      if queued = true then some (documentedIndex numberOfEntries history address) else none
    | _ => none

/-- The table has the size documented; queries read the documented entries, so that of
two addresses that differ in the index bits with the same history each has its own; and
updates train them. -/
structure IndexesAsDocumented (numberOfEntries : Nat) (g : GsharePredictor)
    (log : List GshareEvent) : Prop where
  table : g.entries.length = 2 ^ numberOfEntries.log2
  queries : ∀ history address index queued, .queried history address index queued ∈ log →
    index.toNat = documentedIndex numberOfEntries history address
  apart : ∀ history address index queued address' index' queued',
    .queried history address index queued ∈ log →
    .queried history address' index' queued' ∈ log →
    address.toNat % 2 ^ numberOfEntries.log2 ≠ address'.toNat % 2 ^ numberOfEntries.log2 →
    index ≠ index'
  updates : (updatedIndices log).reduceOption.map BitVec.toNat <+:
    documentedIndices numberOfEntries log

/-- What `Configure` leaves, and what never changes: no index bits, so that every index is
zero; and the indices in the queue are those queued and not trained yet. -/
structure Unrounded (numberOfEntries : Nat) (g : GsharePredictor) (log : List GshareEvent) :
    Prop where
  entries : g.entries.length = numberOfEntries
  bits : g.indexBitsSize = 0
  first : ∀ index ∈ queriedIndices log, index = 0
  pending : (updatedIndices log).reduceOption ++ g.pending = queuedIndices log

theorem Unrounded.configure {numberOfEntries : Int} {indexQueueSize : Option Int}
    {sendTo : Bool} {g : GsharePredictor}
    (configured : GsharePredictor.configure numberOfEntries indexQueueSize sendTo = .ok g) :
    Unrounded numberOfEntries.toNat g [] := by
  obtain ⟨_, _, rfl⟩ := GsharePredictor.configure_eq configured
  exact ⟨List.length_replicate, rfl, fun _ none => absurd none List.not_mem_nil, rfl⟩

theorem calculateIndex_of_unrounded {g : GsharePredictor} (bits : g.indexBitsSize = 0)
    (addr : BitVec 64) : (g.calculateIndex addr).currentIndex = 0 := by
  apply BitVec.eq_of_toNat_eq
  rw [g.calculateIndex_toNat addr (by omega), bits, Nat.pow_zero, Nat.mod_one]
  rfl

theorem Unrounded.step {numberOfEntries : Nat} {g : GsharePredictor} {log : List GshareEvent}
    (unrounded : Unrounded numberOfEntries g log) (packet : PredictorPacket) :
    Unrounded numberOfEntries (g.step packet).1 (log ++ (g.step packet).2) := by
  obtain ⟨entries, bits⟩ := g.step_sizes packet
  have pending := unrounded.pending
  refine ⟨entries.trans unrounded.entries, bits.trans unrounded.bits, ?_, ?_⟩
  · intro index member
    rw [queriedIndices_append] at member
    rcases List.mem_append.mp member with old | new
    · exact unrounded.first index old
    · by_cases query : packet.type = .requestQuery
      · obtain ⟨queued, events, _⟩ := g.step_of_query query
        rw [events] at new
        rw [List.mem_singleton.mp new]
        exact calculateIndex_of_unrounded unrounded.bits _
      · by_cases update : packet.type = .requestDirectionUpdate
        · rcases g.step_of_update update with ⟨_, events, _⟩ | ⟨trained, _, events⟩
          · rw [events] at new
            cases new
          · rw [events] at new
            cases new
        · rw [g.step_of_other query update] at new
          cases new
  · rw [updatedIndices_append, queuedIndices_append, List.reduceOption_append, List.append_assoc,
      ← pending, List.append_assoc]
    congr 1
    by_cases query : packet.type = .requestQuery
    · obtain ⟨queued, events, longer⟩ := g.step_of_query query
      rw [events, longer]
      cases queued
      · exact (List.append_nil _).trans (List.append_nil _).symm
      · rfl
    · by_cases update : packet.type = .requestDirectionUpdate
      · rcases g.step_of_update update with ⟨empty, events, empty'⟩ | ⟨trained, first, events⟩
        · rw [events, empty, empty']
          rfl
        · rw [events, first]
          exact (List.append_nil _).symm
      · rw [g.step_of_other query update]
        exact (List.append_nil _).symm

/-- In a run from a configured predictor. -/
theorem unrounded_run {numberOfEntries : Int} {indexQueueSize : Option Int} {sendTo : Bool}
    {g : GsharePredictor}
    (configured : GsharePredictor.configure numberOfEntries indexQueueSize sendTo = .ok g)
    (packets : List PredictorPacket) :
    Unrounded numberOfEntries.toNat (Machine.run GsharePredictor.step g packets).1
      (Machine.run GsharePredictor.step g packets).2 :=
  Machine.run_induction GsharePredictor.step
    (P := fun g _ log => Unrounded numberOfEntries.toNat g log) (Unrounded.configure configured)
    (fun _ _ _ packet unrounded => unrounded.step packet) packets

section Queue

variable (indexQueueSize : Option Int) (packets : List PredictorPacket)

/-- The queue of indices as it is allocated. -/
def indexQueueExtent : CircularBufferExtent := .allocate (asInt (indexQueueSize.getD 1)) 8

/-- No index of a run is written outside the queue. -/
def QueueInside : Prop :=
  EnqueuesInside (asInt (indexQueueSize.getD 1)) 8 (packets.filterMap GsharePredictor.queueOp)

/-- The queue is allocated, and where it may grow it does not grow too large in a run. -/
structure QueueFits : Prop where
  size : CircularBufferExtent.Fits (asInt (indexQueueSize.getD 1)) 8
  growth : Machine.Meets CircularBufferExtent.step CircularBufferExtent.GrowthFits
    (indexQueueExtent indexQueueSize) (packets.filterMap GsharePredictor.queueOp)

/-- What is written is inside, and the queue of the predictor is the one allocated. -/
structure QueueWritten (g : GsharePredictor) : Prop where
  inside : QueueInside indexQueueSize packets
  queue : (Machine.run CircularBufferExtent.step (indexQueueExtent indexQueueSize)
      (packets.filterMap GsharePredictor.queueOp)).1 =
    (Machine.run GsharePredictor.step g packets).1.indexQueue.extents 8

variable {indexQueueSize packets}

/-- A size other than zero is one with which no run writes outside exactly when it is
positive as an `int` and its octets fit. -/
theorem queueInside_iff (bounded : asInt (indexQueueSize.getD 1) ≠ 0) :
    (∀ packets, QueueInside indexQueueSize packets) ↔
      CircularBufferExtent.Fits (asInt (indexQueueSize.getD 1)) 8 := by
  constructor
  · intro always
    by_contra wide
    unfold CircularBufferExtent.Fits at wide
    rw [if_neg bounded] at wide
    obtain ⟨count, outside⟩ :=
      CircularBufferExtent.overrun (show (0 : Int) < 8 by decide) bounded (by omega)
    let query : PredictorPacket := { type := .requestQuery }
    have queues : (List.replicate count query).filterMap GsharePredictor.queueOp =
        List.replicate count .enqueue := List.filterMap_replicate_of_some rfl
    have queries := always (List.replicate count query)
    unfold QueueInside EnqueuesInside at queries
    rw [queues] at queries
    cases queries false outside
  · rintro ⟨natural, fits⟩ packets
    rw [if_neg bounded] at fits
    exact (CircularBufferExtent.limited_inside_iff (by decide) bounded).mpr
      ⟨by omega, fits⟩ _

/-- The queue moves as its extent does. -/
theorem indexQueue_run {g : GsharePredictor} (inside : (g.indexQueue.extents 8).Inside)
    (room : Machine.Meets CircularBufferExtent.step CircularBufferExtent.GrowthFits
      (g.indexQueue.extents 8) (packets.filterMap GsharePredictor.queueOp)) :
    (Machine.run CircularBufferExtent.step (g.indexQueue.extents 8)
        (packets.filterMap GsharePredictor.queueOp)).1 =
      (Machine.run GsharePredictor.step g packets).1.indexQueue.extents 8 := by
  induction packets generalizing g with
  | nil => rfl
  | cons packet packets ih =>
    cases queues : GsharePredictor.queueOp packet with
    | none =>
      have same : (g.step packet).1 = g := by
        have silent : g.step packet = (g, []) := by
          apply g.step_of_other
          · intro query
            simp [GsharePredictor.queueOp, query] at queues
          · intro update
            simp [GsharePredictor.queueOp, update] at queues
        rw [silent]
      rw [List.filterMap_cons_none queues] at room ⊢
      rw [Machine.run_cons, same]
      exact ih inside room
    | some op =>
      rw [List.filterMap_cons_some queues] at room ⊢
      obtain ⟨here, later⟩ := room
      have moves := g.extents_step inside queues here
      have after := (inside.step op here).2
      rw [moves] at later after
      rw [Machine.run_cons, Machine.run_cons, moves]
      exact ih after later

theorem indexQueueExtent_configure {numberOfEntries : Int} {sendTo : Bool} {g : GsharePredictor}
    (configured : GsharePredictor.configure numberOfEntries indexQueueSize sendTo = .ok g)
    (fits : CircularBufferExtent.Fits (asInt (indexQueueSize.getD 1)) 8) :
    indexQueueExtent indexQueueSize = g.indexQueue.extents 8 := by
  have limit : (((BitVec.ofInt 32 (indexQueueSize.getD 1)).toInt.toNat : Nat) : Int) =
      asInt (indexQueueSize.getD 1) := by
    rw [BitVec.toInt_ofInt]
    exact Int.toNat_of_nonneg fits.1
  unfold GsharePredictor.configure at configured
  split at configured
  · cases configured
  split at configured
  · cases configured
  cases configured
  unfold indexQueueExtent
  rw [← limit] at fits ⊢
  exact CircularBuffer.extents_allocate (by decide) fits

theorem QueueFits.written (fits : QueueFits indexQueueSize packets) {numberOfEntries : Int}
    {sendTo : Bool} {g : GsharePredictor}
    (configured : GsharePredictor.configure numberOfEntries indexQueueSize sendTo = .ok g) :
    QueueWritten indexQueueSize packets g := by
  have inside := CircularBufferExtent.inside_allocate (by decide) fits.size
  have start := indexQueueExtent_configure configured fits.size
  have growth := fits.growth
  refine ⟨inside.run _ growth, ?_⟩
  rw [start] at growth ⊢
  exact indexQueue_run (start ▸ inside) growth

end Queue

/-- Queries in a log that read the documented entries. -/
def QueriesDocumented (numberOfEntries : Nat) (log : List GshareEvent) : Prop :=
  ∀ history address index queued, .queried history address index queued ∈ log →
    index.toNat = documentedIndex numberOfEntries history address

/-- A query has to be for the first entry, which is the one it gets. -/
def ForFirstEntry (numberOfEntries : Nat) (g : GsharePredictor) (packet : PredictorPacket) :
    Prop :=
  packet.type = .requestQuery →
    documentedIndex numberOfEntries g.globalBranchHistReg
      packet.instruction.staticInfo.instAddress = 0

theorem queriesDocumented_append (numberOfEntries : Nat) (log more : List GshareEvent) :
    QueriesDocumented numberOfEntries (log ++ more) ↔
      QueriesDocumented numberOfEntries log ∧ QueriesDocumented numberOfEntries more := by
  constructor
  · intro all
    exact ⟨fun history address index queued member =>
        all history address index queued (List.mem_append_left _ member),
      fun history address index queued member =>
        all history address index queued (List.mem_append_right _ member)⟩
  · rintro ⟨early, late⟩ history address index queued member
    rcases List.mem_append.mp member with member | member
    · exact early history address index queued member
    · exact late history address index queued member

theorem step_documented_iff (numberOfEntries : Nat) {g : GsharePredictor}
    (bits : g.indexBitsSize = 0) (packet : PredictorPacket) :
    QueriesDocumented numberOfEntries (g.step packet).2 ↔
      ForFirstEntry numberOfEntries g packet := by
  by_cases query : packet.type = .requestQuery
  · obtain ⟨queued, events, _⟩ := g.step_of_query query
    rw [events, calculateIndex_of_unrounded bits]
    constructor
    · intro documented _
      exact (documented _ _ _ _ (List.mem_singleton_self _)).symm
    · intro first history address index queued member
      cases List.mem_singleton.mp member
      exact (first query).symm
  · refine iff_of_true ?_ fun isQuery => absurd isQuery query
    by_cases update : packet.type = .requestDirectionUpdate
    · rcases g.step_of_update update with ⟨_, events, _⟩ | ⟨trained, _, events⟩
      · rw [events]
        intro _ _ _ _ member
        cases List.mem_singleton.mp member
      · rw [events]
        intro _ _ _ _ member
        cases List.mem_singleton.mp member
    · rw [g.step_of_other query update]
      exact fun _ _ _ _ member => absurd member List.not_mem_nil

/-- Indices of documented queries are the documented ones. -/
theorem documentedIndices_eq {numberOfEntries : Nat} {log : List GshareEvent}
    (documented : QueriesDocumented numberOfEntries log) :
    documentedIndices numberOfEntries log = (queuedIndices log).map BitVec.toNat := by
  induction log with
  | nil => rfl
  | cons event log ih =>
    obtain ⟨here, later⟩ := (queriesDocumented_append numberOfEntries [event] log).mp documented
    have ih := ih later
    unfold documentedIndices queuedIndices at ih ⊢
    cases event with
    | updated index => exact ih
    | queried history address index queued =>
      have same := here history address index queued (List.mem_singleton_self _)
      cases queued with
      | false => exact ih
      | true =>
        simp only [List.filterMap_cons, if_true, List.map_cons]
        rw [ih, same]

/-- Addresses that differ in the index bits have different documented entries. -/
theorem documentedIndex_apart {numberOfEntries : Nat} {history address address' : BitVec 64}
    (same : documentedIndex numberOfEntries history address =
      documentedIndex numberOfEntries history address') :
    address.toNat % 2 ^ numberOfEntries.log2 = address'.toNat % 2 ^ numberOfEntries.log2 := by
  unfold documentedIndex at same
  rw [BitVec.toNat_xor, BitVec.toNat_xor, Nat.xor_mod_two_pow, Nat.xor_mod_two_pow] at same
  have cancelled := congrArg (history.toNat % 2 ^ numberOfEntries.log2 ^^^ ·) same
  simpa only [← Nat.xor_assoc, Nat.xor_self, Nat.zero_xor] using cancelled

theorem indexesAsDocumented_iff {numberOfEntries : Int} {indexQueueSize : Option Int}
    {sendTo : Bool} {g : GsharePredictor}
    (configured : GsharePredictor.configure numberOfEntries indexQueueSize sendTo = .ok g)
    (packets : List PredictorPacket) :
    IndexesAsDocumented numberOfEntries.toNat (Machine.run GsharePredictor.step g packets).1
        (Machine.run GsharePredictor.step g packets).2 ↔
      numberOfEntries.toNat = 2 ^ numberOfEntries.toNat.log2 ∧
        Machine.Meets GsharePredictor.step (ForFirstEntry numberOfEntries.toNat) g packets := by
  have unrounded := unrounded_run configured packets
  have queries := Machine.meets_iff_of_step GsharePredictor.step
    (ForFirstEntry numberOfEntries.toNat) (fun g => g.indexBitsSize = 0)
    (QueriesDocumented numberOfEntries.toNat)
    (fun _ _ _ _ member => absurd member List.not_mem_nil)
    (queriesDocumented_append numberOfEntries.toNat)
    (fun g packet bits => (g.step_sizes packet).2.trans bits)
    (fun g packet bits => step_documented_iff numberOfEntries.toNat bits packet) g
    (Unrounded.configure configured).bits packets
  rw [← queries]
  constructor
  · intro documented
    exact ⟨unrounded.entries.symm.trans documented.table, documented.queries⟩
  · rintro ⟨power, documented⟩
    refine ⟨unrounded.entries.trans power, documented, ?_, ?_⟩
    · intro history address index queued address' index' queued' member member' different same
      have shared : documentedIndex numberOfEntries.toNat history address =
          documentedIndex numberOfEntries.toNat history address' := by
        rw [← documented _ _ _ _ member, ← documented _ _ _ _ member', same]
      exact different (documentedIndex_apart shared)
    · rw [documentedIndices_eq documented, ← unrounded.pending, List.map_append]
      exact List.prefix_append _ _

/-- For every number of entries and queue size that `Configure` accepts and every sequence
of requests, which is what the clock makes of any cycles: where the queue is allocated it is
not written outside, and the predictor uses its table as documented if and only if the
number of entries is a power of two and each query is for an address whose documented entry,
when the query is made, is the first. With any other size of the queue that is not zero some
sequence of queries writes outside. -/
theorem gshare_indexes_as_documented {numberOfEntries : Int} {indexQueueSize : Option Int}
    {sendTo : Bool} {g : GsharePredictor}
    (configured : GsharePredictor.configure numberOfEntries indexQueueSize sendTo = .ok g) :
    (∀ packets, QueueFits indexQueueSize packets →
      QueueWritten indexQueueSize packets g ∧
      (IndexesAsDocumented numberOfEntries.toNat (Machine.run GsharePredictor.step g packets).1
          (Machine.run GsharePredictor.step g packets).2 ↔
        numberOfEntries.toNat = 2 ^ numberOfEntries.toNat.log2 ∧
          Machine.Meets GsharePredictor.step (ForFirstEntry numberOfEntries.toNat) g packets)) ∧
    (∀ (n : Nat) (connections : Connections n PredictorPacket PredictorPacket)
      (cycles : List (ClientCycle n PredictorPacket)),
      (Machine.run GsharePredictor.clock.cycle (g, connections) cycles).1.1 =
        (Machine.run GsharePredictor.step g (ComponentLog.handled
          (Machine.run GsharePredictor.clock.cycle (g, connections) cycles).2)).1) ∧
    (asInt (indexQueueSize.getD 1) ≠ 0 →
      ((∀ packets, QueueInside indexQueueSize packets) ↔
        CircularBufferExtent.Fits (asInt (indexQueueSize.getD 1)) 8)) :=
  ⟨fun packets fits => ⟨fits.written configured, indexesAsDocumented_iff configured packets⟩,
    fun _ connections cycles => g.clock_cycles connections cycles, queueInside_iff⟩

/-- A predictor of four entries. -/
def fourEntries : GsharePredictor where
  entries := List.replicate 4 {}
  indexQueueSize := 1
  indexQueue := .allocate 1
  numberOfEntries := 4

def queryFor (address : BitVec 64) : PredictorPacket :=
  { type := .requestQuery, instruction := { staticInfo := { instAddress := address } } }

def takenUpdate : PredictorPacket := { type := .requestDirectionUpdate, taken := true }

def notTakenUpdate : PredictorPacket := { type := .requestDirectionUpdate, taken := false }

/-- Three branches, with the histories 0, 1 and 2 when they are queried. -/
def threeBranches : List PredictorPacket :=
  [queryFor 8, takenUpdate, queryFor 5, notTakenUpdate, queryFor 6, takenUpdate]

theorem gshare_indexes_four :
    (Machine.run GsharePredictor.step fourEntries threeBranches).1.globalBranchHistReg = 5 ∧
      IndexesAsDocumented 4 (Machine.run GsharePredictor.step fourEntries threeBranches).1
        (Machine.run GsharePredictor.step fourEntries threeBranches).2 := by
  have configured : GsharePredictor.configure 4 none false = .ok fourEntries := rfl
  have fits : QueueFits none threeBranches := ⟨by decide, by decide⟩
  have meets : Machine.Meets GsharePredictor.step (ForFirstEntry 4) fourEntries threeBranches :=
    ⟨fun _ => rfl, nofun, fun _ => by decide, nofun, fun _ => by decide, nofun, trivial⟩
  exact ⟨by decide,
    (((gshare_indexes_as_documented configured).1 threeBranches fits).2).mpr ⟨rfl, meets⟩⟩

/-- A query for address 1 reads entry 0 and not 1. -/
theorem gshare_reads_another_entry :
    GsharePredictor.configure 4 none false = .ok fourEntries ∧
      ¬ IndexesAsDocumented 4 (Machine.run GsharePredictor.step fourEntries [queryFor 1]).1
        (Machine.run GsharePredictor.step fourEntries [queryFor 1]).2 := by
  refine ⟨rfl, fun documented => ?_⟩
  have read := documented.queries 0 1 0 true (by decide)
  exact absurd read (by decide)

end Sinuca3.Guarantees
