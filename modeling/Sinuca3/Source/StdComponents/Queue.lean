import Sinuca3.Source.Engine.Component

/-!
# Queue

`misc/queue.hpp`. A queue keeps nothing itself: what is sent to it waits in the
connection, and its clock passes it on to another component until that one refuses.
-/
namespace Sinuca3.Source
open Lib

structure Queue (α : Type) where
  throughput : Int
  /-- The connection to `sendTo`. -/
  sendTo : Connection α α

namespace Queue

variable {α δ : Type} {n : Nat}

/-- `Configure`, which does not check the throughput: the connection is one only where that
is allocated as the `int` that `Connect` takes. -/
def configure [Inhabited α] (throughput : Option Int) : Queue α where
  throughput := throughput.getD 0
  sendTo := .connect (throughput.getD 0)

/-- The inner loop of `Clock`, over what waits on a connection, and whether the clock
returns from it. A message that is refused is not put back. -/
def forward (id : Fin n) : Nat → Queue α × Connections n α α →
    (Queue α × Connections n α α) × ComponentLog n α α × Bool
  | 0, s => (s, [], false)
  | left + 1, s =>
    match (s.2 id).getRequest with
    | none => (s, [], false)
    | some (packet, c) =>
      match s.1.sendTo.sendRequest packet with
      | none => ((s.1, Function.update s.2 id c), [], true)
      | some sendTo =>
        let rest := forward id left ({ s.1 with sendTo }, Function.update s.2 id c)
        (rest.1, (id, .processed packet) :: rest.2.1, rest.2.2)

/-- The outer loop. -/
def forwardAll : List (Fin n) → Queue α × Connections n α α →
    (Queue α × Connections n α α) × ComponentLog n α α
  | [], s => (s, [])
  | id :: ids, s =>
    let first := forward id (s.2 id).readableRequests.length s
    if first.2.2 then (first.1, first.2.1)
    else
      let rest := forwardAll ids first.1
      (rest.1, first.2.1 ++ rest.2)

def clock : ComponentClock (Queue α) n α α := forwardAll (List.finRange n)

/-- What waits on some connections. -/
def waiting (connections : Connections n α α) (ids : List (Fin n)) : List α :=
  ids.flatMap fun id => (connections id).readableRequests

/-- Room for so many more messages at `sendTo`. -/
def Room (q : Queue α) (messages : Nat) : Prop :=
  q.sendTo.bufferSize = 0 ∨ q.sendTo.sentRequests.length + messages ≤ q.sendTo.bufferSize

/-- A loop over some connections: as many messages as there is room for are passed on,
and all of them if there is room for all. -/
structure Forwarded (before after : Queue α × Connections n α α) (ids : List (Fin n))
    (log : ComponentLog n α α) : Prop where
  limit : after.1.sendTo.bufferSize = before.1.sendTo.bufferSize
  sent : after.1.sendTo.sentRequests =
    before.1.sendTo.sentRequests ++ ids.flatMap fun id => log.processed id
  count : (ids.flatMap fun id => log.processed id).length =
    before.1.sendTo.takes (waiting before.2 ids).length
  all : before.1.Room (waiting before.2 ids).length →
    ∀ id ∈ ids, log.processed id = (before.2 id).readableRequests
  bufferSize : ∀ id, (after.2 id).bufferSize = (before.2 id).bufferSize
  sentRequests : ∀ id, (after.2 id).sentRequests = (before.2 id).sentRequests
  untouched : ∀ id, id ∉ ids → after.2 id = before.2 id ∧ log.processed id = []
  accepted : ∀ id, log.accepted id = []

theorem waiting_singleton (connections : Connections n α α) (id : Fin n) :
    waiting connections [id] = (connections id).readableRequests := by
  simp [waiting]

theorem takes_of_room {q : Queue α} {messages : Nat} (room : q.Room messages) :
    q.sendTo.takes messages = messages := by
  unfold Room at room
  unfold Connection.takes
  split <;> omega

theorem forward_eq (id : Fin n) (left : Nat) (s : Queue α × Connections n α α)
    (waits : (s.2 id).readableRequests.length = left) :
    Forwarded s (forward id left s).1 [id] (forward id left s).2.1 ∧
      (s.1.Room left ↔ (forward id left s).2.2 = false) := by
  induction left generalizing s with
  | zero =>
    have room : s.1.Room 0 := by
      by_cases bounded : s.1.sendTo.bufferSize = 0
      · exact .inl bounded
      · exact .inr (s.1.sendTo.requests_length_le bounded).1
    have empty := List.eq_nil_of_length_eq_zero waits
    refine ⟨⟨rfl, (List.append_nil _).symm, ?_, ?_, fun _ => rfl, fun _ => rfl,
      fun _ _ => ⟨rfl, rfl⟩, fun _ => rfl⟩, fun _ => rfl, fun _ => room⟩
    · rw [waiting_singleton, waits, takes_of_room room]
      rfl
    · intro _ other here
      cases List.mem_singleton.mp here
      exact empty.symm
  | succ left ih =>
    unfold forward
    rcases (s.2 id).getRequest_eq with ⟨_, empty⟩ | ⟨packet, c, rest, taken, queue, views⟩
    · rw [empty] at waits
      cases waits
    have left' : rest.length = left := by
      rw [queue] at waits
      exact Nat.succ.inj waits
    have elsewhere : ∀ other, other ∉ [id] → Function.update s.2 id c other = s.2 other := by
      intro other outside
      rw [List.mem_singleton] at outside
      exact Function.update_of_ne outside c s.2
    have frame := s.2.update_frame id views.bufferSize views.sentRequests
    rw [taken]
    dsimp only
    rcases s.1.sendTo.sendRequest_eq packet with
      ⟨refused, bounded, full⟩ | ⟨sendTo, sent, views', room⟩
    · rw [refused]
      have noRoom : ¬ s.1.Room (left + 1) := by
        rintro (unlimited | room)
        · omega
        · omega
      refine ⟨⟨rfl, (List.append_nil _).symm, ?_, ?_,
        fun other => (frame other).1, fun other => (frame other).2,
        fun other outside => ⟨elsewhere other outside, rfl⟩, fun _ => rfl⟩, ?_⟩
      · rw [Connection.takes_eq_zero bounded full]
        rfl
      · rw [waiting_singleton, waits]
        exact fun room => absurd room noRoom
      · exact iff_of_false noRoom (by simp)
    · rw [sent]
      dsimp only
      have next : (Function.update s.2 id c id).readableRequests = rest := by
        rw [Function.update_self, views.readableRequests]
      obtain ⟨later, returns⟩ := ih ({ s.1 with sendTo }, Function.update s.2 id c)
        ((congrArg List.length next).trans left')
      have roomSucc : s.1.Room (left + 1) ↔ Room { s.1 with sendTo } left := by
        unfold Room
        dsimp only
        rw [views'.bufferSize, views'.sentRequests, List.length_append, List.length_singleton]
        omega
      have head : ∀ log : ComponentLog n α α,
          ComponentLog.processed id ((id, .processed packet) :: log) = packet :: log.processed id :=
        fun log => by simp [ComponentLog.processed]
      have laterSent := later.sent
      have laterCount := later.count
      have laterAll := later.all
      simp only [List.flatMap_singleton, waiting_singleton, next,
        left'] at laterSent laterCount laterAll
      refine ⟨⟨later.limit.trans views'.bufferSize, ?_, ?_, ?_, ?_, ?_, ?_, ?_⟩, ?_⟩
      · rw [List.flatMap_singleton, head, laterSent, views'.sentRequests, List.append_assoc,
          List.singleton_append]
      · rw [List.flatMap_singleton, head, List.length_cons, laterCount, waiting_singleton, waits,
          Connection.takes_succ room views']
      · rw [waiting_singleton, waits]
        intro enough other here
        cases List.mem_singleton.mp here
        rw [head, laterAll (roomSucc.mp enough) id here, queue, next]
      · exact fun other => (later.bufferSize other).trans (frame other).1
      · exact fun other => (later.sentRequests other).trans (frame other).2
      · intro other outside
        obtain ⟨same, silent⟩ := later.untouched other outside
        refine ⟨same.trans (elsewhere other outside), ?_⟩
        rw [← silent]
        simp only [ComponentLog.processed, List.filterMap_cons]
        rw [if_neg fun same => outside (by simp [same])]
      · exact fun other => later.accepted other
      · exact roomSucc.trans returns

theorem waiting_cons (connections : Connections n α α) (id : Fin n) (ids : List (Fin n)) :
    (waiting connections (id :: ids)).length =
      (connections id).readableRequests.length + (waiting connections ids).length :=
  List.length_append

/-- The clock returns from a loop that runs out of room, and what waits on the other
connections is not reached. -/
theorem Forwarded.returned {before after : Queue α × Connections n α α} {id : Fin n}
    {ids : List (Fin n)} {log : ComponentLog n α α} (fresh : id ∉ ids)
    (first : Forwarded before after [id] log)
    (noRoom : ¬ before.1.Room (before.2 id).readableRequests.length) :
    Forwarded before after (id :: ids) log := by
  have silent : ids.flatMap (fun id => log.processed id) = [] := by
    rw [List.flatMap_eq_nil_iff]
    intro other here
    exact (first.untouched other fun same =>
      fresh (List.mem_singleton.mp same ▸ here)).2
  have sent := first.sent
  have count := first.count
  rw [List.flatMap_singleton] at sent count
  rw [waiting_singleton] at count
  unfold Room at noRoom
  refine ⟨first.limit, ?_, ?_, ?_, first.bufferSize, first.sentRequests, ?_, first.accepted⟩
  · rw [List.flatMap_cons, silent, List.append_nil, sent]
  · rw [List.flatMap_cons, silent, List.append_nil, count, waiting_cons]
    unfold Connection.takes
    rw [if_neg (by omega), if_neg (by omega)]
    omega
  · intro enough
    unfold Room at enough
    rw [waiting_cons] at enough
    omega
  · intro other outside
    rw [List.mem_cons, not_or] at outside
    exact first.untouched other fun same => outside.1 (List.mem_singleton.mp same)

/-- Loops over one connection and then others. -/
theorem Forwarded.cons {before middle after : Queue α × Connections n α α} {id : Fin n}
    {ids : List (Fin n)} {log log' : ComponentLog n α α} (fresh : id ∉ ids)
    (first : Forwarded before middle [id] log)
    (room : before.1.Room (before.2 id).readableRequests.length)
    (second : Forwarded middle after ids log') :
    Forwarded before after (id :: ids) (log ++ log') := by
  have others : ∀ other ∈ ids, middle.2 other = before.2 other ∧ log.processed other = [] :=
    fun other here => first.untouched other fun same =>
      fresh (List.mem_singleton.mp same ▸ here)
  have head : (log ++ log').processed id = (before.2 id).readableRequests := by
    have all := first.all
    rw [waiting_singleton] at all
    rw [ComponentLog.processed_append, all room id (List.mem_singleton_self id),
      (second.untouched id fresh).2, List.append_nil]
  have tail : ∀ other ∈ ids, (log ++ log').processed other = log'.processed other := by
    intro other here
    rw [ComponentLog.processed_append, (others other here).2, List.nil_append]
  have tails : ids.flatMap (fun id => (log ++ log').processed id) =
      ids.flatMap fun id => log'.processed id := List.flatMap_congr tail
  have waits : waiting middle.2 ids = waiting before.2 ids :=
    List.flatMap_congr fun other here => by rw [(others other here).1]
  have sent := first.sent
  have all := first.all
  rw [waiting_singleton] at all
  rw [List.flatMap_singleton, all room id (List.mem_singleton_self id)] at sent
  have sentLength := congrArg List.length sent
  rw [List.length_append] at sentLength
  have limit := first.limit
  unfold Room at room
  refine ⟨second.limit.trans first.limit, ?_, ?_, ?_, ?_, ?_, ?_, ?_⟩
  · rw [second.sent, sent, List.flatMap_cons, head, tails, List.append_assoc]
  · rw [List.flatMap_cons, head, tails, List.length_append, second.count, waits, waiting_cons]
    unfold Connection.takes
    rw [limit, sentLength]
    split <;> omega
  · intro enough other here
    rcases List.mem_cons.mp here with rfl | here
    · exact head
    · rw [tail other here, ← (others other here).1]
      refine second.all ?_ other here
      rw [waits]
      rw [waiting_cons] at enough
      unfold Room at enough ⊢
      rw [limit, sentLength]
      omega
  · exact fun other => (second.bufferSize other).trans (first.bufferSize other)
  · exact fun other => (second.sentRequests other).trans (first.sentRequests other)
  · intro other outside
    rw [List.mem_cons, not_or] at outside
    obtain ⟨same, silent⟩ := first.untouched other fun same =>
      outside.1 (List.mem_singleton.mp same)
    obtain ⟨same', silent'⟩ := second.untouched other outside.2
    refine ⟨same'.trans same, ?_⟩
    rw [ComponentLog.processed_append, silent, silent']
    rfl
  · intro other
    rw [ComponentLog.accepted_append, first.accepted, second.accepted]
    rfl

theorem forwardAll_eq (s : Queue α × Connections n α α) (ids : List (Fin n))
    (distinct : ids.Nodup) :
    Forwarded s (forwardAll ids s).1 ids (forwardAll ids s).2 := by
  induction ids generalizing s with
  | nil =>
    refine ⟨rfl, (List.append_nil _).symm, ?_, ?_, fun _ => rfl, fun _ => rfl,
      fun _ _ => ⟨rfl, rfl⟩, fun _ => rfl⟩
    · exact (Nat.le_zero.mp (s.1.sendTo.takes_le 0)).symm
    · exact fun _ _ here => absurd here List.not_mem_nil
  | cons id ids ih =>
    obtain ⟨fresh, distinct⟩ := List.nodup_cons.mp distinct
    obtain ⟨first, returns⟩ := forward_eq id _ s rfl
    unfold forwardAll
    dsimp only
    split
    · rename_i returned
      refine first.returned fresh fun room => ?_
      rw [returns.mp room] at returned
      cases returned
    · rename_i goesOn
      rw [Bool.not_eq_true] at goesOn
      exact first.cons fresh (returns.mpr goesOn) (ih _ distinct)

theorem clock_eq (s : Queue α × Connections n α α) :
    Forwarded s (clock s).1 (List.finRange n) (clock s).2 :=
  forwardAll_eq s _ (List.nodup_finRange n)

/-- A queue and the component it sends to, which is clocked before it or after it. The
connection between them is swapped when the cycle ends. -/
def stage (S : Server δ α α) (first : Bool) : ComponentClock (Queue α × δ) n α α :=
  fun ((q, d), connections) =>
    let early := if first then S.clock d q.sendTo else (d, q.sendTo)
    let clocked := clock ({ q with sendTo := early.2 }, connections)
    let late :=
      if first then (early.1, clocked.1.1.sendTo) else S.clock early.1 clocked.1.1.sendTo
    ((({ clocked.1.1 with sendTo := late.2.swapBuffers }, late.1), clocked.1.2), clocked.2)

/-- What waits on all connections fits in the connection to `sendTo`, or that one has
no limit. -/
def WithinThroughput (s : (Queue α × δ) × Connections n α α) : Prop :=
  s.1.1.sendTo.bufferSize = 0 ∨
    (waiting s.2 (List.finRange n)).length ≤ s.1.1.sendTo.bufferSize

section Stage

variable (S : Server δ α α) (first : Bool) (s : (Queue α × δ) × Connections n α α)

/-- The other component neither sends on the connection nor changes its limit. -/
theorem stage_forwards : ∃ before after : Queue α × Connections n α α,
    before.1.sendTo.bufferSize = s.1.1.sendTo.bufferSize ∧
    before.1.sendTo.sentRequests = s.1.1.sendTo.sentRequests ∧ before.2 = s.2 ∧
    Forwarded before after (List.finRange n) (stage S first s).2 ∧
    after.2 = (stage S first s).1.2 := by
  obtain ⟨⟨q, d⟩, connections⟩ := s
  let early := if first then S.clock d q.sendTo else (d, q.sendTo)
  refine ⟨({ q with sendTo := early.2 }, connections), _, ?_, ?_, rfl, clock_eq _, rfl⟩
  · cases first
    · rfl
    · exact S.bufferSize d q.sendTo
  · cases first
    · rfl
    · exact S.sentRequests d q.sendTo

theorem stage_sendTo :
    (stage S first s).1.1.1.sendTo.bufferSize = s.1.1.sendTo.bufferSize ∧
      (stage S first s).1.1.1.sendTo.sentRequests = [] := by
  obtain ⟨⟨q, d⟩, connections⟩ := s
  refine ⟨?_, Connection.sentRequests_swap _⟩
  cases first
  · exact (S.bufferSize _ _).trans (clock_eq (q, connections)).limit
  · exact (clock_eq _).limit.trans (S.bufferSize d q.sendTo)

theorem stage_framed : (stage S first : ComponentClock (Queue α × δ) n α α).Framed where
  bufferSize s id := by
    obtain ⟨before, after, _, _, same, forwarded, result⟩ := stage_forwards S first s
    rw [← result, ← same]
    exact forwarded.bufferSize id
  sentRequests s id := by
    obtain ⟨before, after, _, _, same, forwarded, result⟩ := stage_forwards S first s
    rw [← result, ← same]
    exact forwarded.sentRequests id
  accepted s id := by
    obtain ⟨before, after, _, _, _, forwarded, _⟩ := stage_forwards S first s
    exact forwarded.accepted id

/-- How much a cycle passes on, and when that is all. -/
theorem stage_count (unsent : s.1.1.sendTo.sentRequests = []) :
    ((List.finRange n).flatMap fun id => (stage S first s).2.processed id).length =
        s.1.1.sendTo.takes (waiting s.2 (List.finRange n)).length ∧
      (WithinThroughput s →
        ∀ id, (stage S first s).2.processed id = (s.2 id).readableRequests) := by
  obtain ⟨before, after, limit, sent, same, forwarded, _⟩ := stage_forwards S first s
  constructor
  · rw [forwarded.count, same]
    unfold Connection.takes
    rw [limit, sent]
  · intro within id
    rw [← same]
    refine forwarded.all ?_ id (List.mem_finRange id)
    unfold Room
    rw [limit, sent, unsent, same, List.length_nil, Nat.zero_add]
    exact within

end Stage

end Queue

end Sinuca3.Source
