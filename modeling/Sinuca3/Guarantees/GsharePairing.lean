import Sinuca3.Guarantees.GshareIndex

/-!
# Which update trains which entry

An update trains the entry whose index has waited longest. A query that finds the queue
full, which by default takes one index, leaves nothing there for its update.
-/
namespace Sinuca3.Guarantees
open Sinuca3.Source Lib

/-- Each update trains the entry whose index was computed for the query with its number. -/
def UpdatesPaired (log : List GshareEvent) : Prop :=
  updatedIndices log <+: (queriedIndices log).map some

/-- An update that finds an index in the queue. -/
def FindsIndex (g : GsharePredictor) (packet : PredictorPacket) : Prop :=
  packet.type = .requestDirectionUpdate → g.indexQueue.isEmpty = false

def AllTrain (log : List GshareEvent) : Prop := none ∉ updatedIndices log

theorem step_allTrain_iff (g : GsharePredictor) (packet : PredictorPacket) :
    AllTrain (g.step packet).2 ↔ FindsIndex g packet := by
  have found : g.indexQueue.isEmpty = false ↔ g.pending ≠ [] := by
    rw [GsharePredictor.pending, ← List.length_pos_iff, CircularBuffer.contents_length,
      CircularBuffer.isEmpty, beq_eq_false_iff_ne, Nat.pos_iff_ne_zero]
  unfold FindsIndex
  rw [found]
  by_cases update : packet.type = .requestDirectionUpdate
  · rcases g.step_of_update update with ⟨empty, events, _⟩ | ⟨trained, first, events⟩
    · rw [events]
      refine iff_of_false (fun all => all (List.mem_singleton_self _)) fun finds => ?_
      exact finds update empty
    · rw [events]
      refine iff_of_true (fun member => ?_) fun _ empty => ?_
      · cases List.mem_singleton.mp member
      · rw [empty] at first
        cases first
  · refine iff_of_true ?_ fun isUpdate => absurd isUpdate update
    by_cases query : packet.type = .requestQuery
    · obtain ⟨queued, events, _⟩ := g.step_of_query query
      rw [events]
      exact List.not_mem_nil
    · rw [g.step_of_other query update]
      exact List.not_mem_nil

theorem queuedIndices_sublist (log : List GshareEvent) :
    (queuedIndices log).Sublist (queriedIndices log) := by
  induction log with
  | nil => exact List.Sublist.slnil
  | cons event log ih =>
    cases event with
    | updated index => exact ih
    | queried history address index queued =>
      cases queued with
      | false => exact ih.cons index
      | true => exact ih.cons_cons index

/-- With one index for everything, it only matters that there is one. -/
theorem updatesPaired_iff {numberOfEntries : Nat} {g : GsharePredictor} {log : List GshareEvent}
    (unrounded : Unrounded numberOfEntries g log) : UpdatesPaired log ↔ AllTrain log := by
  constructor
  · intro paired none
    have trained := paired.subset none
    simp at trained
  · intro all
    have sub := queuedIndices_sublist log
    have queried : queriedIndices log = List.replicate (queriedIndices log).length 0 :=
      List.eq_replicate_of_mem unrounded.first
    have trained : ∀ index ∈ updatedIndices log, index = some 0 := by
      intro index member
      cases index with
      | none => exact absurd member all
      | some index =>
        have queued : index ∈ queuedIndices log := by
          rw [← unrounded.pending]
          exact List.mem_append_left _ (List.reduceOption_mem_iff.mpr member)
        rw [unrounded.first index (sub.subset queued)]
    have updated : updatedIndices log = List.replicate (updatedIndices log).length (some 0) :=
      List.eq_replicate_of_mem trained
    have enough : (updatedIndices log).length ≤ (queriedIndices log).length := by
      have whole : (updatedIndices log).reduceOption.length = (updatedIndices log).length := by
        rw [List.reduceOption_length_eq_iff]
        intro index member
        rw [trained index member]
        rfl
      have split := congrArg List.length unrounded.pending
      rw [List.length_append] at split
      have fewer := sub.length_le
      omega
    unfold UpdatesPaired
    rw [updated, queried, List.map_replicate]
    refine ⟨List.replicate ((queriedIndices log).length - (updatedIndices log).length) (some 0), ?_⟩
    rw [← List.replicate_add, Nat.add_sub_cancel' enough]

theorem updatesPaired_run_iff {numberOfEntries : Int} {indexQueueSize : Option Int}
    {sendTo : Bool} {g : GsharePredictor}
    (configured : GsharePredictor.configure numberOfEntries indexQueueSize sendTo = .ok g)
    (packets : List PredictorPacket) :
    UpdatesPaired (Machine.run GsharePredictor.step g packets).2 ↔
      Machine.Meets GsharePredictor.step FindsIndex g packets := by
  rw [updatesPaired_iff (unrounded_run configured packets)]
  refine Machine.meets_iff_of_step GsharePredictor.step FindsIndex (fun _ => True) AllTrain
    List.not_mem_nil (fun log more => ?_) (fun _ _ _ => trivial)
    (fun g packet _ => step_allTrain_iff g packet) g trivial packets
  unfold AllTrain
  rw [updatedIndices_append, List.mem_append, not_or]

/-- For every number of entries and queue size that `Configure` accepts and every sequence
of requests: where the queue is allocated it is not written outside, and each update trains
the entry computed for the query with its number if and only if no update finds the queue
of indices empty. With any other size that is not zero some queries write outside. -/
theorem gshare_updates_paired {numberOfEntries : Int} {indexQueueSize : Option Int}
    {sendTo : Bool} {g : GsharePredictor}
    (configured : GsharePredictor.configure numberOfEntries indexQueueSize sendTo = .ok g) :
    (∀ packets, QueueFits indexQueueSize packets →
      QueueWritten indexQueueSize packets g ∧
      (UpdatesPaired (Machine.run GsharePredictor.step g packets).2 ↔
        Machine.Meets GsharePredictor.step FindsIndex g packets)) ∧
    (asInt (indexQueueSize.getD 1) ≠ 0 →
      ((∀ packets, QueueInside indexQueueSize packets) ↔
        CircularBufferExtent.Fits (asInt (indexQueueSize.getD 1)) 8)) :=
  ⟨fun packets fits => ⟨fits.written configured, updatesPaired_run_iff configured packets⟩,
    queueInside_iff⟩

/-- A query and its update, three times. -/
theorem gshare_update_follows_query :
    UpdatesPaired (Machine.run GsharePredictor.step fourEntries threeBranches).2 := by
  have configured : GsharePredictor.configure 4 none false = .ok fourEntries := rfl
  have fits : QueueFits none threeBranches := ⟨by decide, by decide⟩
  have meets : Machine.Meets GsharePredictor.step FindsIndex fourEntries threeBranches :=
    ⟨nofun, fun _ => by decide, nofun, fun _ => by decide, nofun, fun _ => by decide, trivial⟩
  exact (((gshare_updates_paired configured).1 threeBranches fits).2).mpr meets

/-- At every point there are no more updates than queries. -/
def NeverAhead (packets : List PredictorPacket) : Prop :=
  ∀ k ≤ packets.length, (packets.take k).countP (·.type = .requestDirectionUpdate) ≤
    (packets.take k).countP (·.type = .requestQuery)

/-- Two queries and then two updates, as in the test of the predictor. -/
theorem gshare_second_update_lost :
    GsharePredictor.configure 4 none false = .ok fourEntries ∧
      NeverAhead [queryFor 1, queryFor 2, takenUpdate, takenUpdate] ∧
      ¬ UpdatesPaired (Machine.run GsharePredictor.step fourEntries
        [queryFor 1, queryFor 2, takenUpdate, takenUpdate]).2 := by
  refine ⟨rfl, ?_, ?_⟩
  · unfold NeverAhead
    decide
  · unfold UpdatesPaired
    decide

end Sinuca3.Guarantees
