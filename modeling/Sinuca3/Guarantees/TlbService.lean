import Sinuca3.Guarantees.CacheRuns
import Sinuca3.Source.StdComponents.Itlb

/-!
# Requests to the instruction TLB

The requests go through a queue with one server: a hit takes the cycle it is taken out
in, a miss the penalty after that. A penalty of zero cycles is never paid off, as the
answer of a miss is sent when the penalty counts down to zero.
-/
namespace Sinuca3.Guarantees
open Sinuca3.Source Lib

variable {n : Nat}

def hits (report : TlbReport) : List TlbRequest :=
  match report.dequeued with
  | some (request, true) => [request]
  | _ => []

def misses (report : TlbReport) : List TlbRequest :=
  match report.dequeued with
  | some (request, false) => [request]
  | _ => []

section Outcome

variable {report : TlbReport}

theorem outcome_of_none (out : report.dequeued = none) :
    misses report = [] ∧ hits report = [] := by
  unfold misses hits
  rw [out]
  exact ⟨rfl, rfl⟩

theorem outcome_of_hit {request : TlbRequest} (out : report.dequeued = some (request, true)) :
    misses report = [] ∧ hits report = [request] := by
  unfold misses hits
  rw [out]
  exact ⟨rfl, rfl⟩

theorem outcome_of_miss {request : TlbRequest} (out : report.dequeued = some (request, false)) :
    misses report = [request] ∧ hits report = [] := by
  unfold misses hits
  rw [out]
  exact ⟨rfl, rfl⟩

end Outcome

/-- The requests read in the cycles of a log, those taken out and those answered. -/
def arrivals (log : List TlbReport) : List TlbRequest := log.flatMap TlbReport.received

def dequeues (log : List TlbReport) : List TlbRequest :=
  log.filterMap fun report => report.dequeued.map Prod.fst

def responses (log : List TlbReport) : List TlbRequest := log.flatMap TlbReport.answered

/-- What is to be answered in a cycle: a hit of this cycle, and a miss of as many cycles
before as the penalty is. -/
def due (missPenalty : Nat) (before : List TlbReport) (report : TlbReport) : List TlbRequest :=
  hits report ++
    if missPenalty ≤ before.length then
      ((before ++ [report])[before.length - missPenalty]?).toList.flatMap misses
    else []

/-- A cycle after those of a log: all that waits is read, requests are taken out in the
order of arrival and none before the one before it is answered, and answers are sent when
they are due and at no other time. -/
structure Justified (missPenalty : Nat) (before : List TlbReport) (report : TlbReport) :
    Prop where
  received : report.received = report.waiting
  inOrder : dequeues (before ++ [report]) <+: arrivals (before ++ [report])
  answered : report.answered = due missPenalty before report
  oneAtATime : report.dequeued ≠ none → ∀ c earlier, before[c]? = some earlier →
    misses earlier ≠ [] → c + missPenalty < before.length

/-- What an iTLB owes its clients: every cycle is justified, what is answered is what was
read, once and in order, and each request is answered when at the latest as many cycles
have passed as those up to it can take. -/
structure AnswersAll (missPenalty : Nat) (log : List TlbReport) : Prop where
  justified : Machine.Explained (Justified missPenalty) log
  once : responses log <+: arrivals log
  finishes : ∀ before after, log = before ++ after →
    (arrivals before).length * (missPenalty + 1) ≤ after.length → arrivals before <+: responses log

section Append

variable (log more : List TlbReport)

@[simp] theorem arrivals_append : arrivals (log ++ more) = arrivals log ++ arrivals more :=
  List.flatMap_append

@[simp] theorem dequeues_append : dequeues (log ++ more) = dequeues log ++ dequeues more :=
  List.filterMap_append

@[simp] theorem responses_append : responses (log ++ more) = responses log ++ responses more :=
  List.flatMap_append

end Append

theorem arrivals_singleton (report : TlbReport) : arrivals [report] = report.received := by
  simp [arrivals]

theorem responses_singleton (report : TlbReport) : responses [report] = report.answered := by
  simp [responses]

theorem dequeues_singleton (report : TlbReport) :
    dequeues [report] = (report.dequeued.map Prod.fst).toList := by
  unfold dequeues
  rw [List.filterMap_cons]
  cases report.dequeued <;> rfl

/-- After the cycles of a log an iTLB is in the middle of a penalty with so many cycles
left, or of none. -/
structure Serving (n missPenalty : Nat) (t : Itlb) (log : List TlbReport) (left : Nat) :
    Prop where
  penalty : t.missPenalty = missPenalty
  paying : t.currentPenalty = if left = 0 then noPenalty else (left : Int)
  atMost : left ≤ missPenalty
  queue : arrivals log = dequeues log ++ t.pendingRequests.contents
  owed : dequeues log = responses log ++ if left = 0 then [] else [t.curRequest]
  inside : ∀ request ∈ arrivals log, request.id < n
  settled : ∀ c report request, log[c]? = some report → request ∈ misses report →
    c + missPenalty < log.length ∨
      c + missPenalty + 1 = log.length + left ∧ request = t.curRequest
  current : 0 < left → ∃ c report, log[c]? = some report ∧ misses report = [t.curRequest] ∧
    c + missPenalty + 1 = log.length + left
  quiet : missPenalty = 0 → arrivals log = []

/-- Bounds on the cycles it takes to answer the first requests of a log. -/
def workLeft (missPenalty : Nat) (log : List TlbReport) (left requests : Nat) : Nat :=
  (requests - (dequeues log).length) * (missPenalty + 1) + left

theorem getElem?_concat_cases {α : Type} {log : List α} {x y : α} {c : Nat}
    (here : (log ++ [x])[c]? = some y) : log[c]? = some y ∨ c = log.length ∧ y = x := by
  rw [List.getElem?_append] at here
  split at here
  · exact .inl here
  · rename_i after
    right
    rcases Nat.lt_or_ge (c - log.length) 1 with inside | beyond
    · have first : c - log.length = 0 := by omega
      rw [first] at here
      exact ⟨by omega, (Option.some.inj here).symm⟩
    · rw [List.getElem?_eq_none (by rw [List.length_singleton]; exact beyond)] at here
      cases here

section Step

variable {missPenalty left : Nat} {t t' : Itlb} {log : List TlbReport} {report : TlbReport}

/-- No penalty ends in this cycle. -/
theorem Serving.due_eq (before : Serving n missPenalty t log left) (notLast : left ≠ 1)
    (pays : missPenalty = 0 → misses report = []) : due missPenalty log report = hits report := by
  unfold due
  split
  · rename_i early
    rcases entry : (log ++ [report])[log.length - missPenalty]? with _ | earlier
    · exact List.append_nil _
    · have none : misses earlier = [] := by
        rcases getElem?_concat_cases entry with old | ⟨here, rfl⟩
        · have inside := (List.getElem?_eq_some_iff.mp old).1
          rw [List.eq_nil_iff_forall_not_mem]
          intro request member
          rcases before.settled _ _ _ old member with late | ⟨last, _⟩
          · omega
          · omega
        · exact pays (by omega)
      change hits report ++ (misses earlier ++ []) = _
      rw [none]
      exact List.append_nil _
  · exact List.append_nil _

/-- The penalty of the current request ends in this cycle. -/
theorem Serving.due_last (before : Serving n missPenalty t log 1) :
    due missPenalty log report = hits report ++ [t.curRequest] := by
  obtain ⟨c, earlier, entry, miss, last⟩ := before.current (by decide)
  have inside := (List.getElem?_eq_some_iff.mp entry).1
  unfold due
  rw [if_pos (by omega), List.getElem?_append_left (by omega),
    show log.length - missPenalty = c by omega, entry]
  change hits report ++ (misses earlier ++ []) = _
  rw [miss, List.append_nil]

/-- The misses before this cycle are settled as before, with what is left of the current
penalty. -/
theorem Serving.settled_concat (before : Serving n missPenalty t log left) {left' : Nat}
    (current : 1 < left → left = left' + 1 ∧ t'.curRequest = t.curRequest)
    (fresh : ∀ request ∈ misses report, left' = missPenalty ∧ t'.curRequest = request) :
    ∀ c earlier request, (log ++ [report])[c]? = some earlier → request ∈ misses earlier →
      c + missPenalty < (log ++ [report]).length ∨
        c + missPenalty + 1 = (log ++ [report]).length + left' ∧ request = t'.curRequest := by
  intro c earlier request entry member
  rw [List.length_append, List.length_singleton]
  rcases getElem?_concat_cases entry with old | ⟨rfl, rfl⟩
  · rcases before.settled c earlier request old member with settled | ⟨last, same⟩
    · exact .inl (by omega)
    · rcases Nat.lt_or_ge 1 left with more | atMost
      · obtain ⟨count, kept⟩ := current more
        exact .inr ⟨by omega, same.trans kept.symm⟩
      · exact .inl (by omega)
  · obtain ⟨full, same⟩ := fresh request member
    exact .inr ⟨by omega, same.symm⟩

/-- What is left of a penalty after this cycle is of one that was being paid, or of the
miss of this cycle. -/
theorem Serving.current_concat (before : Serving n missPenalty t log left) {left' : Nat}
    (current : 1 < left → left = left' + 1 ∧ t'.curRequest = t.curRequest)
    (source : 0 < left' → 1 < left ∨ left' = missPenalty ∧ misses report = [t'.curRequest])
    (pays : 0 < left') :
    ∃ c earlier, (log ++ [report])[c]? = some earlier ∧ misses earlier = [t'.curRequest] ∧
      c + missPenalty + 1 = (log ++ [report]).length + left' := by
  rw [List.length_append, List.length_singleton]
  rcases source pays with more | ⟨full, fresh⟩
  · obtain ⟨count, same⟩ := current more
    obtain ⟨c, earlier, entry, miss, last⟩ := before.current (by omega)
    refine ⟨c, earlier, ?_, by rw [miss, same], by omega⟩
    rw [List.getElem?_append_left (List.getElem?_eq_some_iff.mp entry).1, entry]
  · exact ⟨log.length, report, List.getElem?_concat_length, fresh, by omega⟩

theorem Serving.queue_concat (before : Serving n missPenalty t log left)
    (serves : Itlb.Serves t (t.pendingRequests.contents ++ report.received) t' report.dequeued
      report.answered) :
    arrivals (log ++ [report]) = dequeues (log ++ [report]) ++ t'.pendingRequests.contents := by
  rw [arrivals_append, arrivals_singleton, dequeues_append, dequeues_singleton, before.queue,
    List.append_assoc, serves.queue, List.append_assoc]

theorem Serving.inside_concat (before : Serving n missPenalty t log left)
    (inside : ∀ request ∈ report.received, request.id < n) :
    ∀ request ∈ arrivals (log ++ [report]), request.id < n := by
  intro request member
  rw [arrivals_append, arrivals_singleton] at member
  rcases List.mem_append.mp member with old | new
  · exact before.inside request old
  · exact inside request new

theorem Serving.quiet_concat (before : Serving n missPenalty t log left)
    (some : 0 < missPenalty ∨ report.received = []) :
    missPenalty = 0 → arrivals (log ++ [report]) = [] := by
  intro free
  rw [arrivals_append, arrivals_singleton, before.quiet free, some.resolve_left (by omega)]
  rfl

/-- No penalty is being paid. -/
theorem Serving.free (before : Serving n missPenalty t log left) (free : t.currentPenalty ≤ 0) :
    left = 0 := by
  have paying := before.paying
  split at paying
  · assumption
  · omega

theorem Serving.oneAtATime (before : Serving n missPenalty t log 0) (c : Nat)
    (earlier : TlbReport) (entry : log[c]? = some earlier) (miss : misses earlier ≠ []) :
    c + missPenalty < log.length := by
  obtain ⟨request, member⟩ := List.exists_mem_of_ne_nil _ miss
  rcases before.settled c earlier request entry member with settled | ⟨last, _⟩
  · exact settled
  · omega

/-- With a penalty of zero there are no requests. -/
theorem Serving.positive (before : Serving n missPenalty t log left)
    (some : 0 < missPenalty ∨ report.received = []) {request : TlbRequest}
    {rest : List TlbRequest}
    (first : t.pendingRequests.contents ++ report.received = request :: rest) :
    0 < missPenalty := by
  rcases some with positive | none
  · exact positive
  · apply Nat.pos_of_ne_zero
    intro free
    have queue := before.queue
    rw [before.quiet free] at queue
    rw [none, (List.append_eq_nil_iff.mp queue.symm).2] at first
    cases first

/-- A request that is taken out takes at most the penalty after this cycle. -/
theorem Serving.takesOut (before : Serving n missPenalty t log 0) {left' : Nat}
    {request : TlbRequest} (taken : dequeues (log ++ [report]) = dequeues log ++ [request])
    (small : left' ≤ missPenalty) (requests : Nat) :
    requests ≤ (responses log).length ∨
      workLeft missPenalty (log ++ [report]) left' requests <
        workLeft missPenalty log 0 requests := by
  have owed := congrArg List.length before.owed
  rw [if_pos rfl, List.append_nil] at owed
  rcases Nat.lt_or_ge (dequeues log).length requests with more | done
  · right
    unfold workLeft
    have next : requests - (dequeues log).length =
        requests - ((dequeues log).length + 1) + 1 := by
      omega
    rw [taken, List.length_append, List.length_singleton, next, Nat.succ_mul]
    omega
  · left
    omega

/-- A cycle keeps the account, is justified and takes work off. -/
theorem Serving.step (before : Serving n missPenalty t log left)
    (serves : Itlb.Serves t (t.pendingRequests.contents ++ report.received) t' report.dequeued
      report.answered)
    (penalty : t'.missPenalty = t.missPenalty) (all : report.received = report.waiting)
    (inside : ∀ request ∈ report.received, request.id < n)
    (some : 0 < missPenalty ∨ report.received = []) :
    ∃ left', Serving n missPenalty t' (log ++ [report]) left' ∧
      Justified missPenalty log report ∧
      ∀ requests ≤ (arrivals log).length, requests ≤ (responses log).length ∨
        workLeft missPenalty (log ++ [report]) left' requests <
          workLeft missPenalty log left requests := by
  have same := penalty.trans before.penalty
  have queue := before.queue_concat serves
  have inside' := before.inside_concat inside
  have quiet := before.quiet_concat some
  have taken : dequeues (log ++ [report]) =
      dequeues log ++ (report.dequeued.map Prod.fst).toList := by
    rw [dequeues_append, dequeues_singleton]
  have sent : responses (log ++ [report]) = responses log ++ report.answered := by
    rw [responses_append, responses_singleton]
  have paying := before.paying
  have owed := before.owed
  have atMost := before.atMost
  generalize out : report.dequeued = dequeued at serves taken
  generalize reply : report.answered = answered at serves sent
  cases serves with
  | waits more next current pending =>
    obtain ⟨missed, hit⟩ := outcome_of_none out
    have count : left ≠ 0 := by
      rintro rfl
      rw [if_pos rfl] at paying
      rw [paying] at more
      exact absurd more (by decide)
    rw [if_neg count] at paying owed
    change _ = dequeues log ++ [] at taken
    rw [List.append_nil] at taken sent
    have goesOn : 1 < left → left = left - 1 + 1 ∧ t'.curRequest = t.curRequest :=
      fun _ => ⟨by omega, current⟩
    refine ⟨left - 1, ⟨same, ?_, by omega, queue, ?_, inside',
      before.settled_concat goesOn (by rw [missed]; simp),
      before.current_concat goesOn fun _ => .inl (by omega), quiet⟩,
      ⟨all, ⟨_, queue.symm⟩, ?_, fun some => absurd out some⟩, fun requests _ => ?_⟩
    · rw [next, paying, if_neg (by omega)]
      omega
    · rw [taken, sent, owed, if_neg (by omega), current]
    · rw [before.due_eq (by omega) fun _ => missed, hit, reply]
    · unfold workLeft
      rw [taken]
      omega
  | ends last next pending =>
    obtain ⟨missed, hit⟩ := outcome_of_none out
    have count : left = 1 := by
      rw [last] at paying
      split at paying
      · exact absurd paying (by decide)
      · omega
    subst count
    rw [if_neg (by decide)] at owed
    change _ = dequeues log ++ [] at taken
    rw [List.append_nil] at taken
    refine ⟨0, ⟨same, next, by omega, queue, ?_, inside',
      before.settled_concat (fun more => by omega) (by rw [missed]; simp),
      fun some => by omega, quiet⟩,
      ⟨all, ⟨_, queue.symm⟩, ?_, fun some => absurd out some⟩, fun requests _ => .inr ?_⟩
    · rw [taken, sent, owed, if_pos rfl, List.append_nil]
    · rw [before.due_last, hit, reply]
      rfl
    · unfold workLeft
      rw [taken]
      omega
  | idle free empty next pending cache =>
    obtain ⟨missed, hit⟩ := outcome_of_none out
    obtain rfl := before.free free
    rw [if_pos rfl, List.append_nil] at owed
    change _ = dequeues log ++ [] at taken
    rw [List.append_nil] at taken sent
    refine ⟨0, ⟨same, next.trans paying, by omega, queue, ?_, inside',
      before.settled_concat (fun more => by omega) (by rw [missed]; simp),
      fun some => by omega, quiet⟩,
      ⟨all, ⟨_, queue.symm⟩, ?_, fun some => absurd out some⟩, fun requests few => .inl ?_⟩
    · rw [taken, sent, owed, if_pos rfl, List.append_nil]
    · rw [before.due_eq (by omega) fun _ => missed, hit, reply]
    · rw [before.queue, (List.append_eq_nil_iff.mp empty).1, List.append_nil, owed] at few
      exact few
  | hits free request first next present =>
    obtain ⟨missed, hit⟩ := outcome_of_hit out
    obtain rfl := before.free free
    rw [if_pos rfl, List.append_nil] at owed
    refine ⟨0, ⟨same, next.trans paying, by omega, queue, ?_, inside',
      before.settled_concat (fun more => by omega) (by rw [missed]; simp),
      fun some => by omega, quiet⟩,
      ⟨all, ⟨_, queue.symm⟩, ?_, fun _ => before.oneAtATime⟩, fun requests few => ?_⟩
    · rw [taken, sent, owed, if_pos rfl, List.append_nil]
      rfl
    · rw [before.due_eq (by omega) fun _ => missed, hit, reply]
    · exact before.takesOut taken (by omega) requests
  | misses free request first next current =>
    obtain ⟨missed, hit⟩ := outcome_of_miss out
    obtain rfl := before.free free
    have positive := before.positive some first
    rw [if_pos rfl, List.append_nil] at owed
    rw [List.append_nil] at sent
    have starts : ∀ other ∈ misses report, missPenalty = missPenalty ∧ t'.curRequest = other := by
      intro other member
      rw [missed] at member
      rw [List.mem_singleton.mp member]
      exact ⟨rfl, current⟩
    refine ⟨missPenalty, ⟨same, ?_, by omega, queue, ?_, inside',
      before.settled_concat (fun more => by omega) starts,
      before.current_concat (fun more => by omega) fun _ => .inr ⟨rfl, by rw [missed, current]⟩,
      quiet⟩,
      ⟨all, ⟨_, queue.symm⟩, ?_, fun _ => before.oneAtATime⟩, fun requests few => ?_⟩
    · rw [next, before.penalty, if_neg (by omega)]
    · rw [taken, sent, owed, if_neg (by omega), current]
      rfl
    · rw [before.due_eq (by omega) fun none => by omega, hit, reply]
    · exact before.takesOut taken (Nat.le_refl _) requests

end Step

section Run

variable {missPenalty left : Nat} {log : List TlbReport}

/-- No connection has more than one request in this cycle. -/
def AtMostOne (s : Itlb × Itlb.Ports n) : Prop := ∀ id, (s.2 id).readableRequests.length ≤ 1

def NothingWaits (s : Itlb × Itlb.Ports n) : Prop := ∀ id, (s.2 id).readableRequests = []

/-- An iTLB between two cycles, with the account of what it has done. -/
structure Tracked (missPenalty : Nat) (s : Itlb × Itlb.Ports n) (log : List TlbReport)
    (left : Nat) : Prop where
  unsent : ∀ id, (s.2 id).sentResponses = []
  serving : Serving n missPenalty s.1 log left

theorem waiting_eq_nil {connections : Itlb.Ports n} :
    Itlb.waiting connections (List.finRange n) = [] ↔
      ∀ id, (connections id).readableRequests = [] := by
  unfold Itlb.waiting
  rw [List.flatMap_eq_nil_iff]
  constructor
  · intro none id
    exact List.map_eq_nil_iff.mp (none id (List.mem_finRange id))
  · intro none id _
    rw [none id]
    rfl

theorem Tracked.cycle {s : Itlb × Itlb.Ports n} (before : Tracked missPenalty s log left)
    (single : AtMostOne s) (some : 0 < missPenalty ∨ NothingWaits s)
    (c : ClientCycle n (BitVec 64)) :
    ∃ report left', (Itlb.cycle s c).2 = [report] ∧
      Tracked missPenalty (Itlb.cycle s c).1 (log ++ [report]) left' ∧
      Justified missPenalty log report ∧
      ∀ requests ≤ (arrivals log).length, requests ≤ (responses log).length ∨
        workLeft missPenalty (log ++ [report]) left' requests <
          workLeft missPenalty log left requests := by
  obtain ⟨connections, views, component, only, swapped⟩ := Itlb.cycle_eq s c
  have unsent : ∀ id, (connections id).sentResponses = [] :=
    fun id => (views id).2.trans (before.unsent id)
  have single' : ∀ id, (connections id).readableRequests.length ≤ 1 := by
    intro id
    rw [(views id).1]
    exact single id
  have serving := before.serving
  have pending : ∀ request ∈ s.1.pendingRequests.contents, request.id < n := by
    intro request member
    apply serving.inside
    rw [serving.queue]
    exact List.mem_append_right _ member
  have current : s.1.currentPenalty > 0 → s.1.curRequest.id < n := by
    intro paying
    have count : left ≠ 0 := by
      rintro rfl
      have idle := serving.paying
      rw [if_pos rfl] at idle
      rw [idle] at paying
      exact absurd paying (by decide)
    have owed := serving.owed
    rw [if_neg count] at owed
    apply serving.inside
    rw [serving.queue, owed]
    simp
  obtain ⟨serves, penalty, waits, received, inside⟩ :=
    Itlb.clock_serves (s.1, connections) unsent single' pending current
  rw [← received] at serves inside
  have some' : 0 < missPenalty ∨ (Itlb.clock (s.1, connections)).2.received = [] := by
    refine some.imp id fun none => ?_
    rw [received]
    exact waiting_eq_nil.mpr fun id => (views id).1.trans (none id)
  obtain ⟨left', after, justified, less⟩ :=
    serving.step serves penalty (received.trans waits.symm) inside some'
  rw [← component] at after
  exact ⟨_, left', only, ⟨swapped, after⟩, justified, less⟩

/-- The conditions on a cycle. -/
def Served (missPenalty : Nat) (s : Itlb × Itlb.Ports n) : Prop :=
  AtMostOne s ∧ (0 < missPenalty ∨ NothingWaits s)

theorem Tracked.run {s : Itlb × Itlb.Ports n} (before : Tracked missPenalty s log left)
    (cycles : List (ClientCycle n (BitVec 64)))
    (served : Machine.Meets Itlb.cycle (fun s _ => Served missPenalty s) s cycles) :
    ∃ left', Tracked missPenalty (Machine.run Itlb.cycle s cycles).1
        (log ++ (Machine.run Itlb.cycle s cycles).2) left' ∧
      (Machine.Explained (Justified missPenalty) log →
        Machine.Explained (Justified missPenalty)
          (log ++ (Machine.run Itlb.cycle s cycles).2)) ∧
      ∀ requests ≤ (arrivals log).length,
        requests ≤ (responses (log ++ (Machine.run Itlb.cycle s cycles).2)).length ∨
          workLeft missPenalty (log ++ (Machine.run Itlb.cycle s cycles).2) left' requests +
              cycles.length ≤
            workLeft missPenalty log left requests := by
  induction cycles generalizing s log left with
  | nil =>
    rw [Machine.run_nil, List.append_nil]
    exact ⟨left, before, id, fun requests _ => .inr (Nat.le_refl _)⟩
  | cons c cycles ih =>
    obtain ⟨⟨single, some⟩, later⟩ := served
    obtain ⟨report, left', only, after, justified, less⟩ := before.cycle single some c
    obtain ⟨left'', final, explained, rest⟩ := ih after later
    rw [Machine.run_cons, only, ← List.append_assoc]
    refine ⟨left'', final, fun old => explained (old.concat justified), fun requests few => ?_⟩
    have more : requests ≤ (arrivals (log ++ [report])).length := by
      rw [arrivals_append, List.length_append]
      omega
    rcases less requests few with answered | less
    · left
      rw [responses_append, responses_append, List.length_append, List.length_append]
      omega
    · rcases rest requests more with answered | rest
      · exact .inl answered
      · right
        rw [List.length_cons]
        omega

theorem Serving.workLeft_le {t : Itlb} (serving : Serving n missPenalty t log left) :
    workLeft missPenalty log left (arrivals log).length ≤
      (arrivals log).length * (missPenalty + 1) := by
  unfold workLeft
  have atMost := serving.atMost
  have queue := congrArg List.length serving.queue
  have owed := congrArg List.length serving.owed
  rw [List.length_append] at queue owed
  rcases Nat.eq_zero_or_pos left with none | paying
  · rw [none, Nat.add_zero]
    exact Nat.mul_le_mul_right _ (Nat.sub_le _ _)
  · rw [if_neg (by omega), List.length_singleton] at owed
    have most : ((arrivals log).length - (dequeues log).length) * (missPenalty + 1) ≤
        ((arrivals log).length - 1) * (missPenalty + 1) :=
      Nat.mul_le_mul_right _ (by omega)
    have one : (arrivals log).length * (missPenalty + 1) =
        ((arrivals log).length - 1) * (missPenalty + 1) + (missPenalty + 1) := by
      rw [← Nat.succ_mul]
      congr 1
      omega
    omega

theorem Serving.responses_prefix {t : Itlb} (serving : Serving n missPenalty t log left) :
    responses log <+: arrivals log := by
  have taken : responses log <+: dequeues log := ⟨_, serving.owed.symm⟩
  exact taken.trans ⟨_, serving.queue.symm⟩

/-- Once no work is left, the requests are answered. -/
theorem Serving.answered {t : Itlb} (serving : Serving n missPenalty t log left) {requests : Nat}
    (done : workLeft missPenalty log left requests = 0) : requests ≤ (responses log).length := by
  unfold workLeft at done
  have owed := congrArg List.length serving.owed
  rw [if_pos (by omega), List.append_nil] at owed
  have taken : requests - (dequeues log).length = 0 := by
    apply Nat.eq_zero_of_not_pos
    intro more
    have some : 0 < (requests - (dequeues log).length) * (missPenalty + 1) :=
      Nat.mul_pos more (Nat.succ_pos missPenalty)
    omega
  omega

theorem Tracked.answersAll {s : Itlb × Itlb.Ports n} (start : Tracked missPenalty s [] 0)
    (cycles : List (ClientCycle n (BitVec 64)))
    (served : Machine.Meets Itlb.cycle (fun s _ => Served missPenalty s) s cycles) :
    AnswersAll missPenalty (Machine.run Itlb.cycle s cycles).2 := by
  obtain ⟨left, reached, explained, _⟩ := start.run cycles served
  rw [List.nil_append] at reached explained
  refine ⟨explained (Machine.explained_nil _), reached.serving.responses_prefix,
    fun before after whole long => ?_⟩
  obtain ⟨early, late, rfl, log, count⟩ :=
    Machine.run_split Itlb.cycle (fun _ _ => rfl) s cycles whole
  obtain ⟨served, served'⟩ := (Machine.meets_append _ _ _ _ _).mp served
  obtain ⟨left', middle, _, _⟩ := start.run early served
  rw [List.nil_append, log] at middle
  obtain ⟨left'', final, _, less⟩ := middle.run late served'
  rw [Machine.run_append, log] at whole
  have rest := List.append_cancel_left whole
  rw [rest] at less final
  have first : arrivals before <+: arrivals (before ++ after) := by
    rw [arrivals_append]
    exact List.prefix_append _ _
  have enough : (arrivals before).length ≤ (responses (before ++ after)).length := by
    rcases less _ (Nat.le_refl _) with answered | less
    · exact answered
    · have most := middle.serving.workLeft_le
      exact final.serving.answered (by omega)
  rw [Machine.run_append, log]
  dsimp only
  rw [rest]
  exact List.prefix_of_prefix_length_le first final.serving.responses_prefix enough

end Run

/-- An iTLB that has not had a request. -/
structure Fresh (missPenalty : Nat) (s : Itlb × Itlb.Ports n) : Prop where
  unsent : ∀ id, (s.2 id).sentResponses = []
  penalty : s.1.missPenalty = missPenalty
  paying : s.1.currentPenalty = noPenalty
  pending : s.1.pendingRequests.contents = []
  cache : ∀ addr, s.1.cache.getEntry addr = none

theorem Fresh.tracked {missPenalty : Nat} {s : Itlb × Itlb.Ports n}
    (fresh : Fresh missPenalty s) : Tracked missPenalty s [] 0 where
  unsent := fresh.unsent
  serving :=
    { penalty := fresh.penalty
      paying := fresh.paying
      atMost := Nat.zero_le _
      queue := fresh.pending.symm
      owed := rfl
      inside := fun request member => by cases member
      settled := fun c report request here => by cases here
      current := fun some => absurd some (Nat.lt_irrefl 0)
      quiet := fun _ => rfl }

/-- The first request misses, and with a penalty of zero it is not answered. -/
theorem Fresh.cycle {s : Itlb × Itlb.Ports n} (fresh : Fresh 0 s) (single : AtMostOne s)
    (c : ClientCycle n (BitVec 64)) (log : List TlbReport)
    (justified : ∀ report, (Itlb.cycle s c).2 = [report] → Justified 0 log report) :
    NothingWaits s ∧ Fresh 0 (Itlb.cycle s c).1 := by
  obtain ⟨connections, views, component, only, swapped⟩ := Itlb.cycle_eq s c
  have unsent : ∀ id, (connections id).sentResponses = [] :=
    fun id => (views id).2.trans (fresh.unsent id)
  have single' : ∀ id, (connections id).readableRequests.length ≤ 1 := by
    intro id
    rw [(views id).1]
    exact single id
  have idle : ¬ 0 < s.1.currentPenalty := by
    rw [fresh.paying]
    decide
  obtain ⟨serves, penalty, _⟩ := Itlb.clock_serves (s.1, connections) unsent single'
    (fun request member => by rw [fresh.pending] at member; cases member)
    (fun paying => absurd paying idle)
  have answer := (justified _ only).answered
  rw [fresh.pending, List.nil_append] at serves
  generalize (Itlb.clock (s.1, connections)).2 = report at serves answer
  generalize out : report.dequeued = dequeued at serves
  generalize reply : report.answered = answered at serves
  cases serves with
  | waits more next current pending => exact absurd (Int.lt_trans (by decide) more) idle
  | ends last next pending =>
    rw [last] at idle
    exact absurd (by decide) idle
  | idle free empty next pending cache =>
    refine ⟨fun id => ?_, swapped, ?_, ?_, ?_, ?_⟩
    · rw [← (views id).1]
      exact waiting_eq_nil.mp empty id
    · rw [component]
      exact penalty.trans fresh.penalty
    · rw [component]
      exact next.trans fresh.paying
    · rw [component]
      exact pending
    · rw [component, cache]
      exact fresh.cache
  | hits free request first next present => exact absurd (fresh.cache request.addr) present
  | misses free request first next current =>
    have owed : due 0 log report = [request] := by
      unfold due
      rw [if_pos (Nat.zero_le _), Nat.sub_zero, List.getElem?_concat_length]
      simp [hits, misses, out]
    rw [owed, reply] at answer
    cases answer

theorem Fresh.nothingWaits {s : Itlb × Itlb.Ports n} (fresh : Fresh 0 s)
    (cycles : List (ClientCycle n (BitVec 64))) (log : List TlbReport)
    (single : Machine.Meets Itlb.cycle (fun s _ => AtMostOne s) s cycles)
    (justified : Machine.Explained (Justified 0) (log ++ (Machine.run Itlb.cycle s cycles).2)) :
    Machine.Meets Itlb.cycle (fun s _ => NothingWaits s) s cycles := by
  induction cycles generalizing s log with
  | nil => trivial
  | cons c cycles ih =>
    rw [Machine.run_cons, ← List.append_assoc] at justified
    obtain ⟨none, fresh'⟩ := fresh.cycle single.1 c log fun report only => by
      rw [only] at justified
      exact justified.of_append log report [] rfl
    exact ⟨none, ih fresh' _ single.2 justified⟩

/-- An iTLB whose clients have connected with buffers of any sizes. -/
def translating (t : Itlb) (bufferSizes : Fin n → Nat) : Itlb × Itlb.Ports n :=
  (t, fun id => .connect (bufferSizes id))

theorem fresh_configure {getLog2 : BitVec 32 → BitVec 32} {rand : Nat → Nat}
    {entries associativity missPenalty : Int} {policy : Option String} {pageSize : Option Int}
    {t : Itlb} (configured : Itlb.configure getLog2 rand entries associativity missPenalty policy
      pageSize = .ok t) (natural : 0 ≤ missPenalty) (bufferSizes : Fin n → Nat) :
    Fresh missPenalty.toNat (translating t bufferSizes) := by
  unfold Itlb.configure at configured
  dsimp only at configured
  split at configured
  · cases configured
  split at configured
  · cases configured
  split at configured
  · cases configured
  rename_i cache created
  cases configured
  obtain ⟨index, offset, alocated⟩ := CacheMemory.fromNumSets_alocates created
  refine ⟨fun _ => rfl, (Int.toNat_of_nonneg natural).symm, rfl, rfl, fun addr => ?_⟩
  change cache.getEntry addr = none
  unfold CacheMemory.getEntry
  rw [(alocate_eq alocated).2.1]
  simp

/-- For every geometry, policy, number of clients and run with at most one request a cycle
on each connection: an iTLB answers every request it takes, when it is due and in order,
if and only if its penalty is not zero or it takes no request. -/
theorem itlb_answers_all {getLog2 : BitVec 32 → BitVec 32} {rand : Nat → Nat}
    {entries associativity missPenalty : Int} {policy : Option String} {pageSize : Option Int}
    {t : Itlb} (configured : Itlb.configure getLog2 rand entries associativity missPenalty policy
      pageSize = .ok t) (natural : 0 ≤ missPenalty) (bufferSizes : Fin n → Nat)
    (cycles : List (ClientCycle n (BitVec 64)))
    (single : Machine.Meets Itlb.cycle (fun s _ => AtMostOne s) (translating t bufferSizes)
      cycles) :
    AnswersAll missPenalty.toNat
        (Machine.run Itlb.cycle (translating t bufferSizes) cycles).2 ↔
      0 < missPenalty ∨
        Machine.Meets Itlb.cycle (fun s _ => NothingWaits s) (translating t bufferSizes)
          cycles := by
  have fresh := fresh_configure configured natural bufferSizes
  constructor
  · intro answers
    rcases Int.lt_or_eq_of_le natural with positive | rfl
    · exact .inl positive
    · exact .inr (fresh.nothingWaits cycles [] single answers.justified)
  · intro some
    apply fresh.tracked.answersAll
    refine (Machine.meets_and _ _ _ _ _).mpr ⟨single, ?_⟩
    rcases some with positive | none
    · exact single.imp _ fun _ _ _ => .inl (by omega)
    · exact none.imp _ fun _ _ => .inr

instance (s : Itlb × Itlb.Ports n) : Decidable (AtMostOne s) :=
  inferInstanceAs (Decidable (∀ id, (s.2 id).readableRequests.length ≤ 1))

def floorLog2 (x : BitVec 32) : BitVec 32 := BitVec.ofNat 32 x.toNat.log2

/-- Two requests of a core for a page, and cycles to answer them in. -/
def samePage (core : Fin 1) : List (ClientCycle 1 (BitVec 64)) :=
  [⟨[.sendRequest core 4096], []⟩, ⟨[.sendRequest core 4097], []⟩, ⟨[], []⟩, ⟨[], []⟩, ⟨[], []⟩,
    ⟨[], []⟩]

/-- With a penalty of three cycles, a miss and then a hit. -/
theorem itlb_answers_all_same_page : ∃ t : Itlb,
    Itlb.configure floorLog2 (fun _ => 0) 8 2 3 none none = .ok t ∧
      ((Machine.run Itlb.cycle (translating t fun _ : Fin 1 => 1) (samePage 0)).2.map
        TlbReport.answered = [[], [], [], [], [⟨0, 4096⟩], [⟨0, 4097⟩]]) ∧
      AnswersAll 3 (Machine.run Itlb.cycle (translating t fun _ : Fin 1 => 1) (samePage 0)).2 :=
  ⟨_, rfl, by decide, (@itlb_answers_all 1 floorLog2 (fun _ => 0) 8 2 3 none none _ rfl
    (by decide) (fun _ => 1) (samePage 0)
      ⟨by decide, by decide, by decide, by decide, by decide, by decide, trivial⟩).mpr
        (.inl (by decide))⟩

/-- With a penalty of zero cycles the first of them is never answered. -/
theorem itlb_forgets_miss : ∃ t : Itlb,
    Itlb.configure floorLog2 (fun _ => 0) 8 2 0 none none = .ok t ∧
      Machine.Meets Itlb.cycle (fun s _ => AtMostOne s) (translating t fun _ : Fin 1 => 1)
        (samePage 0) ∧
      ¬ AnswersAll 0
        (Machine.run Itlb.cycle (translating t fun _ : Fin 1 => 1) (samePage 0)).2 := by
  refine ⟨_, rfl, ⟨by decide, by decide, by decide, by decide, by decide, by decide, trivial⟩, ?_⟩
  intro answers
  have justified := answers.justified [{}]
    { waiting := [⟨0, 4096⟩], received := [⟨0, 4096⟩], dequeued := some (⟨0, 4096⟩, false) } _ rfl
  exact absurd justified.answered (by decide)

end Sinuca3.Guarantees
