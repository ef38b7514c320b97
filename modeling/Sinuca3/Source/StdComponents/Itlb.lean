import Sinuca3.Source.Engine.Component
import Sinuca3.Source.Utils.Cache.CacheMemory

/-!
# Instruction TLB

`memory/itlb.cpp`. Requests wait in `pendingRequests` and are taken out one at a time: a
hit is answered at once, a miss when its penalty is paid.
-/
namespace Sinuca3.Source
open Lib

def noPenalty : Int := -1

structure TlbRequest where
  id : Nat := 0
  addr : BitVec 64 := 0
  deriving DecidableEq, Inhabited

structure Itlb where
  numberOfRequests : BitVec 32 := 0
  currentPenalty : Int := noPenalty
  missPenalty : Int
  /-- Of no use until a request is taken out. -/
  curRequest : TlbRequest := {}
  pendingRequests : CircularBuffer TlbRequest 0
  cache : CacheMemory (BitVec 64)

/-- A `Clock`: what waits on the connections when it starts, the requests read, the one
taken out with whether it hits, and those answered. -/
structure TlbReport where
  waiting : List TlbRequest := []
  received : List TlbRequest := []
  dequeued : Option (TlbRequest × Bool) := none
  answered : List TlbRequest := []
  deriving DecidableEq

namespace Itlb

variable {n : Nat}

abbrev Ports (n : Nat) : Type := Connections n (BitVec 64) (BitVec 64)

/-- `Configure`, once the parameters are read and have the right types: all are read into
a `long`, the penalty is used as one and the others as `unsigned long`. -/
def configure (getLog2 : BitVec 32 → BitVec 32) (rand : Nat → Nat)
    (entries associativity missPenalty : Int) (policy : Option String) (pageSize : Option Int) :
    Except String Itlb :=
  let entries := BitVec.ofInt 64 entries
  let numWays := BitVec.ofInt 64 associativity
  let pageSize := BitVec.ofInt 64 (pageSize.getD 4096)
  if entries = 0 then
    .error "Invalid value for iTLB parameter \"entries\": should be > 0."
  else if numWays = 0 then
    .error "Invalid value for iTLB parameter \"associativity\": should be > 0."
  else
    let numSets := (entries / numWays).setWidth 32
    match CacheMemory.fromNumSets getLog2 0 rand numSets (pageSize.setWidth 32)
      (numWays.setWidth 32) (policy.getD "lru") with
    | none => .error "iTLB: Failed to alocate CacheMemory\n"
    | some cache => .ok { missPenalty, pendingRequests := .allocate 0, cache }

/-- The body of the loop over the connections. -/
def receive (s : Itlb × Ports n) (id : Fin n) : (Itlb × Ports n) × List TlbRequest :=
  match (s.2 id).getRequest with
  | none => (s, [])
  | some (addr, c) =>
    let newRequest : TlbRequest := { id, addr }
    (({ s.1 with
        numberOfRequests := s.1.numberOfRequests + 1
        pendingRequests :=
          (s.1.pendingRequests.enqueue newRequest).getD s.1.pendingRequests },
      Function.update s.2 id c), [newRequest])

/-- `SendResponseToConnection` with the address of a request, and the request if that
returned 0. -/
def respond (connections : Ports n) (request : TlbRequest) : Ports n × List TlbRequest :=
  if inside : request.id < n then
    match (connections ⟨request.id, inside⟩).sendResponse request.addr with
    | none => (connections, [])
    | some c => (Function.update connections ⟨request.id, inside⟩ c, [request])
  else (connections, [])

/-- A cycle of a penalty that is being paid. -/
def pay (s : Itlb × Ports n) : (Itlb × Ports n) × TlbReport :=
  let t := { s.1 with currentPenalty := s.1.currentPenalty - 1 }
  if t.currentPenalty = 0 then
    let sent := respond s.2 t.curRequest
    (({ t with currentPenalty := noPenalty }, sent.1), { answered := sent.2 })
  else ((t, s.2), {})

/-- A cycle that can take a request out. -/
def serve (s : Itlb × Ports n) : (Itlb × Ports n) × TlbReport :=
  match s.1.pendingRequests.dequeue with
  | none => (s, {})
  | some (request, pendingRequests) =>
    let t := { s.1 with pendingRequests, curRequest := request }
    match t.cache.read request.addr with
    | (some _, cache) =>
      let sent := respond s.2 request
      (({ t with cache }, sent.1), { dequeued := some (request, true), answered := sent.2 })
    | (none, cache) =>
      (({ t with
          currentPenalty := t.missPenalty
          cache := cache.write request.addr request.addr }, s.2),
        { dequeued := some (request, false) })

/-- What waits on some connections. -/
def waiting (connections : Ports n) (ids : List (Fin n)) : List TlbRequest :=
  ids.flatMap fun id => (connections id).readableRequests.map fun addr => { id, addr }

def clock (s : Itlb × Ports n) : (Itlb × Ports n) × TlbReport :=
  let read := Machine.run receive s (List.finRange n)
  let rest := if read.1.1.currentPenalty > 0 then pay read.1 else serve read.1
  (rest.1,
    { rest.2 with waiting := waiting s.2 (List.finRange n), received := read.2 })

/-- A cycle of the simulation, seen from the iTLB. -/
def cycle (s : Itlb × Ports n) (c : ClientCycle n (BitVec 64)) :
    (Itlb × Ports n) × List TlbReport :=
  let clocked := clock (s.1, (s.2.calls c.before).1)
  ((clocked.1.1, (clocked.1.2.calls c.after).1.posClock), [clocked.2])

/-- Requests are read and nothing else happens. -/
structure Received (before after : Itlb × Ports n) (got : List TlbRequest) : Prop where
  pending : after.1.pendingRequests.contents = before.1.pendingRequests.contents ++ got
  currentPenalty : after.1.currentPenalty = before.1.currentPenalty
  missPenalty : after.1.missPenalty = before.1.missPenalty
  curRequest : after.1.curRequest = before.1.curRequest
  cache : after.1.cache = before.1.cache
  sentResponses : ∀ id, (after.2 id).sentResponses = (before.2 id).sentResponses
  inside : ∀ request ∈ got, request.id < n

theorem Received.refl (s : Itlb × Ports n) : Received s s [] :=
  ⟨(List.append_nil _).symm, rfl, rfl, rfl, rfl, fun _ => rfl, fun _ none => by cases none⟩

theorem Received.trans {before middle after : Itlb × Ports n} {got more : List TlbRequest}
    (first : Received before middle got) (second : Received middle after more) :
    Received before after (got ++ more) where
  pending := by rw [second.pending, first.pending, List.append_assoc]
  currentPenalty := second.currentPenalty.trans first.currentPenalty
  missPenalty := second.missPenalty.trans first.missPenalty
  curRequest := second.curRequest.trans first.curRequest
  cache := second.cache.trans first.cache
  sentResponses id := (second.sentResponses id).trans (first.sentResponses id)
  inside request member := by
    rcases List.mem_append.mp member with old | new
    · exact first.inside request old
    · exact second.inside request new

theorem receive_eq (s : Itlb × Ports n) (id : Fin n) :
    Received s (receive s id).1 (receive s id).2 ∧
      (receive s id).2 = ((s.2 id).readableRequests.take 1).map (⟨id, ·⟩) ∧
      ∀ other, other ≠ id → (receive s id).1.2 other = s.2 other := by
  unfold receive
  rcases (s.2 id).getRequest_eq with ⟨none, empty⟩ | ⟨addr, c, rest, taken, queue, views⟩
  · rw [none, empty]
    exact ⟨Received.refl s, rfl, fun _ _ => rfl⟩
  · rw [taken, queue]
    rcases s.1.pendingRequests.enqueue_eq ⟨id, addr⟩ with ⟨_, bounded, _⟩ | ⟨b, stored, more, _⟩
    · cases bounded
    · dsimp only
      rw [stored]
      refine ⟨⟨more, rfl, rfl, rfl, rfl, fun other => ?_, ?_⟩, rfl, fun other different => ?_⟩
      · by_cases same : other = id
        · subst same
          dsimp only
          rw [Function.update_self, views.sentResponses]
        · exact congrArg Connection.sentResponses (Function.update_of_ne same c s.2)
      · intro request member
        rw [List.mem_singleton.mp member]
        exact id.isLt
      · exact Function.update_of_ne different c s.2

theorem receiveAll_eq (s : Itlb × Ports n) (ids : List (Fin n)) (distinct : ids.Nodup) :
    Received s (Machine.run receive s ids).1 (Machine.run receive s ids).2 ∧
      (Machine.run receive s ids).2 =
        ids.flatMap fun id => ((s.2 id).readableRequests.take 1).map (⟨id, ·⟩) := by
  induction ids generalizing s with
  | nil => exact ⟨Received.refl s, rfl⟩
  | cons id ids ih =>
    obtain ⟨fresh, distinct⟩ := List.nodup_cons.mp distinct
    obtain ⟨first, got, others⟩ := receive_eq s id
    obtain ⟨second, more⟩ := ih (receive s id).1 distinct
    rw [Machine.run_cons]
    refine ⟨first.trans second, ?_⟩
    dsimp only
    rw [got, more, List.flatMap_cons]
    congr 1
    apply List.flatMap_congr
    intro other member
    rw [others other fun same => fresh (same ▸ member)]

/-- Where no connection has more than one request, all that waits is read. -/
theorem receiveAll_waiting (s : Itlb × Ports n)
    (single : ∀ id, (s.2 id).readableRequests.length ≤ 1) :
    Received s (Machine.run receive s (List.finRange n)).1
        (Machine.run receive s (List.finRange n)).2 ∧
      (Machine.run receive s (List.finRange n)).2 = waiting s.2 (List.finRange n) := by
  obtain ⟨received, got⟩ := receiveAll_eq s (List.finRange n) (List.nodup_finRange n)
  refine ⟨received, got.trans (List.flatMap_congr fun id _ => ?_)⟩
  rw [List.take_of_length_le (single id)]

/-- The first response of a cycle is not refused. -/
theorem respond_eq (connections : Ports n) (unsent : ∀ id, (connections id).sentResponses = [])
    {request : TlbRequest} (inside : request.id < n) :
    (respond connections request).2 = [request] := by
  unfold respond
  rw [dif_pos inside]
  rcases (connections ⟨request.id, inside⟩).sendResponse_eq request.addr with
    ⟨_, bounded, full⟩ | ⟨c, sent, _, _⟩
  · rw [unsent, List.length_nil] at full
    omega
  · rw [sent]

/-- Everything a cycle can do to an iTLB once the requests are in the queue: the iTLB
afterwards, what it takes out and what it answers. -/
inductive Serves (t : Itlb) (queue : List TlbRequest) (t' : Itlb) :
    Option (TlbRequest × Bool) → List TlbRequest → Prop
  | waits (paying : 1 < t.currentPenalty)
      (penalty : t'.currentPenalty = t.currentPenalty - 1) (current : t'.curRequest = t.curRequest)
      (pending : t'.pendingRequests.contents = queue) : Serves t queue t' none []
  | ends (paying : t.currentPenalty = 1) (penalty : t'.currentPenalty = noPenalty)
      (pending : t'.pendingRequests.contents = queue) : Serves t queue t' none [t.curRequest]
  | idle (paying : t.currentPenalty ≤ 0) (empty : queue = [])
      (penalty : t'.currentPenalty = t.currentPenalty)
      (pending : t'.pendingRequests.contents = []) (cache : t'.cache = t.cache) :
      Serves t queue t' none []
  | hits (paying : t.currentPenalty ≤ 0) (request : TlbRequest)
      (first : queue = request :: t'.pendingRequests.contents)
      (penalty : t'.currentPenalty = t.currentPenalty)
      (present : t.cache.getEntry request.addr ≠ none) :
      Serves t queue t' (some (request, true)) [request]
  | misses (paying : t.currentPenalty ≤ 0) (request : TlbRequest)
      (first : queue = request :: t'.pendingRequests.contents)
      (penalty : t'.currentPenalty = t.missPenalty) (current : t'.curRequest = request) :
      Serves t queue t' (some (request, false)) []

/-- What is taken out was the first that waited, and the others go on waiting. -/
theorem Serves.queue {t t' : Itlb} {queue answered : List TlbRequest}
    {dequeued : Option (TlbRequest × Bool)} (serves : Serves t queue t' dequeued answered) :
    queue = (dequeued.map Prod.fst).toList ++ t'.pendingRequests.contents := by
  cases serves with
  | waits _ _ _ pending => exact pending.symm
  | ends _ _ pending => exact pending.symm
  | idle _ empty _ pending _ => exact empty.trans pending.symm
  | hits _ _ first => exact first
  | misses _ _ first => exact first

/-- What was read before makes no difference. -/
theorem Serves.received {before after : Itlb × Ports n} {got queue : List TlbRequest} {t' : Itlb}
    {dequeued : Option (TlbRequest × Bool)} {answered : List TlbRequest}
    (received : Received before after got) (serves : Serves after.1 queue t' dequeued answered) :
    Serves before.1 queue t' dequeued answered := by
  obtain ⟨_, penalty, missPenalty, curRequest, cache, _, _⟩ := received
  cases serves with
  | waits paying next current pending =>
    rw [penalty] at paying next
    exact .waits paying next (current.trans curRequest) pending
  | ends paying next pending =>
    rw [penalty] at paying
    rw [curRequest]
    exact .ends paying next pending
  | idle paying empty next pending same =>
    rw [penalty] at paying next
    exact .idle paying empty next pending (same.trans cache)
  | hits paying request first next present =>
    rw [penalty] at paying next
    rw [cache] at present
    exact .hits paying request first next present
  | misses paying request first next current =>
    rw [penalty] at paying
    exact .misses paying request first (next.trans missPenalty) current

theorem pay_serves (s : Itlb × Ports n) (unsent : ∀ id, (s.2 id).sentResponses = [])
    (paying : s.1.currentPenalty > 0) (inside : s.1.curRequest.id < n) :
    Serves s.1 s.1.pendingRequests.contents (pay s).1.1 (pay s).2.dequeued (pay s).2.answered ∧
      (pay s).1.1.missPenalty = s.1.missPenalty := by
  unfold pay
  dsimp only
  split
  · rename_i last
    rw [respond_eq s.2 unsent inside]
    exact ⟨.ends (by omega) rfl rfl, rfl⟩
  · rename_i more
    exact ⟨.waits (by omega) rfl rfl rfl, rfl⟩

theorem serve_serves (s : Itlb × Ports n) (unsent : ∀ id, (s.2 id).sentResponses = [])
    (paying : s.1.currentPenalty ≤ 0)
    (inside : ∀ request ∈ s.1.pendingRequests.contents, request.id < n) :
    Serves s.1 s.1.pendingRequests.contents (serve s).1.1 (serve s).2.dequeued
        (serve s).2.answered ∧
      (serve s).1.1.missPenalty = s.1.missPenalty := by
  unfold serve
  rcases s.1.pendingRequests.dequeue_eq with ⟨none, empty⟩ | ⟨request, rest, taken, queue⟩
  · rw [none]
    exact ⟨.idle paying empty rfl empty rfl, rfl⟩
  · rw [taken]
    dsimp only
    have here := inside request (queue ▸ List.mem_cons_self ..)
    unfold CacheMemory.read
    rcases entry : s.1.cache.getEntry request.addr with _ | cell
    · exact ⟨.misses paying request queue rfl rfl, rfl⟩
    · dsimp only
      rw [respond_eq s.2 unsent here]
      exact ⟨.hits paying request queue rfl (by rw [entry]; exact Option.some_ne_none cell), rfl⟩

/-- A clock on connections that have no response yet and at most one request each. -/
theorem clock_serves (s : Itlb × Ports n) (unsent : ∀ id, (s.2 id).sentResponses = [])
    (single : ∀ id, (s.2 id).readableRequests.length ≤ 1)
    (pending : ∀ request ∈ s.1.pendingRequests.contents, request.id < n)
    (current : s.1.currentPenalty > 0 → s.1.curRequest.id < n) :
    Serves s.1 (s.1.pendingRequests.contents ++ waiting s.2 (List.finRange n)) (clock s).1.1
        (clock s).2.dequeued (clock s).2.answered ∧
      (clock s).1.1.missPenalty = s.1.missPenalty ∧
      (clock s).2.waiting = waiting s.2 (List.finRange n) ∧
      (clock s).2.received = waiting s.2 (List.finRange n) ∧
      ∀ request ∈ waiting s.2 (List.finRange n), request.id < n := by
  obtain ⟨received, got⟩ := receiveAll_waiting s single
  unfold clock
  generalize Machine.run receive s (List.finRange n) = read at received got
  obtain ⟨after, more⟩ := read
  dsimp only at received got ⊢
  subst got
  have unsent' : ∀ id, (after.2 id).sentResponses = [] :=
    fun id => (received.sentResponses id).trans (unsent id)
  have inside : ∀ request ∈ after.1.pendingRequests.contents, request.id < n := by
    intro request member
    rw [received.pending] at member
    rcases List.mem_append.mp member with old | new
    · exact pending request old
    · exact received.inside request new
  rw [← received.pending]
  split
  · rename_i paying
    have current' : after.1.curRequest.id < n := by
      rw [received.curRequest]
      exact current (by rw [← received.currentPenalty]; exact paying)
    obtain ⟨serves, same⟩ := pay_serves after unsent' paying current'
    exact ⟨serves.received received, same.trans received.missPenalty, rfl, rfl, received.inside⟩
  · rename_i idle
    obtain ⟨serves, same⟩ := serve_serves after unsent' (by omega) inside
    exact ⟨serves.received received, same.trans received.missPenalty, rfl, rfl, received.inside⟩

/-- A cycle is a clock on the requests of the cycle before, and the responses of a cycle
are gone when the next starts. -/
theorem cycle_eq (s : Itlb × Ports n) (c : ClientCycle n (BitVec 64)) :
    ∃ connections : Ports n,
      (∀ id, (connections id).readableRequests = (s.2 id).readableRequests ∧
        (connections id).sentResponses = (s.2 id).sentResponses) ∧
      (cycle s c).1.1 = (clock (s.1, connections)).1.1 ∧
      (cycle s c).2 = [(clock (s.1, connections)).2] ∧
      ∀ id, ((cycle s c).1.2 id).sentResponses = [] := by
  have early := s.2.calls_eq c.before
  exact ⟨_, fun id => ⟨early.readableRequests id, early.sentResponses id⟩, rfl, rfl,
    fun id => Connection.sentResponses_swap _⟩

end Itlb

end Sinuca3.Source
