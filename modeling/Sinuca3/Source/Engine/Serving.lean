import Sinuca3.Source.Engine.Component

/-!
# Components that serve requests

In its clock a component loops over the connections, reads requests, does what they are
for and sends the responses, if there are any. Some components have
`if (ReceiveRequestFromConnection(..) == 0)` in that loop and read one request of each
connection, others have `while` and read all.
-/
namespace Sinuca3.Source
open Lib

variable {σ Req Resp : Type} {n : Nat} (respond : σ → Req → σ × Option Resp)

/-- The body of the loop. A response that is refused is dropped. -/
def serveOne (s : σ × Connections n Req Resp) (id : Fin n) :
    (σ × Connections n Req Resp) × ComponentLog n Req Resp :=
  match (s.2 id).getRequest with
  | none => (s, [])
  | some (request, c) =>
    let answer := respond s.1 request
    match answer.2.bind fun response => (c.sendResponse response).map fun c => (c, response) with
    | none => ((answer.1, Function.update s.2 id c), [(id, .processed request)])
    | some (c, response) =>
      ((answer.1, Function.update s.2 id c), [(id, .processed request), (id, .answered response)])

/-- The loop with `if`. -/
def clockOnce : ComponentClock σ n Req Resp :=
  fun s => Machine.run (serveOne respond) s (List.finRange n)

/-- The loop with `while`. -/
def clockAll : ComponentClock σ n Req Resp := fun s =>
  Machine.run (fun s id =>
    Machine.run (serveOne respond) s (List.replicate (s.2 id).readableRequests.length id)) s
      (List.finRange n)

/-- The state once all the requests are handled. -/
def afterRequests (s : σ) (requests : List Req) : σ :=
  requests.foldl (fun s request => (respond s request).1) s

@[simp] theorem afterRequests_cons (s : σ) (request : Req) (requests : List Req) :
    afterRequests respond s (request :: requests) =
      afterRequests respond (respond s request).1 requests := rfl

theorem afterRequests_append (s : σ) (requests more : List Req) :
    afterRequests respond s (requests ++ more) =
      afterRequests respond (afterRequests respond s requests) more :=
  List.foldl_append

/-- The first request of each connection. -/
def firstRequests (connections : Connections n Req Resp) (ids : List (Fin n)) : List Req :=
  ids.flatMap fun id => (connections id).readableRequests.take 1

section Spec

variable {α : Type} (asked : Req → Option α) (answered : Resp → α)

/-- The loop over some connections: the first request of each is handled, and answered
if it asks for that. -/
structure Served (before after : σ × Connections n Req Resp) (ids : List (Fin n))
    (log : ComponentLog n Req Resp) : Prop where
  component : after.1 = afterRequests respond before.1 (firstRequests before.2 ids)
  bufferSize : ∀ id, (after.2 id).bufferSize = (before.2 id).bufferSize
  sentRequests : ∀ id, (after.2 id).sentRequests = (before.2 id).sentRequests
  untouched : ∀ id, id ∉ ids → after.2 id = before.2 id ∧
    log.processed id = [] ∧ log.answered id = []
  accepted : ∀ id, log.accepted id = []
  processed : ∀ id ∈ ids, log.processed id = (before.2 id).readableRequests.take 1
  answered : ∀ id ∈ ids, (before.2 id).sentResponses = [] →
    (log.answered id).map answered = ((before.2 id).readableRequests.take 1).filterMap asked

variable {asked answered}

/-- Two loops, over different connections. -/
theorem Served.trans {before middle after : σ × Connections n Req Resp} {id : Fin n}
    {ids : List (Fin n)} {log log' : ComponentLog n Req Resp} (fresh : id ∉ ids)
    (first : Served respond asked answered before middle [id] log)
    (second : Served respond asked answered middle after ids log') :
    Served respond asked answered before after (id :: ids) (log ++ log') := by
  have others : ∀ other, other ≠ id → middle.2 other = before.2 other ∧
      log.processed other = [] ∧ log.answered other = [] := fun other different =>
    first.untouched other fun here => different (List.mem_singleton.mp here)
  have notFresh : ∀ other, other ∈ ids → other ≠ id := by
    rintro other here rfl
    exact fresh here
  refine ⟨?_, ?_, ?_, ?_, ?_, ?_, ?_⟩
  · have later : firstRequests middle.2 ids = firstRequests before.2 ids :=
      List.flatMap_congr fun other here => by rw [(others other (notFresh other here)).1]
    rw [second.component, first.component, later, ← afterRequests_append]
    rw [firstRequests, firstRequests, firstRequests, ← List.flatMap_append, List.singleton_append]
  · exact fun other => (second.bufferSize other).trans (first.bufferSize other)
  · exact fun other => (second.sentRequests other).trans (first.sentRequests other)
  · intro other outside
    rw [List.mem_cons, not_or] at outside
    obtain ⟨different, outside⟩ := outside
    obtain ⟨same, silent, unanswered⟩ := others other different
    obtain ⟨same', silent', unanswered'⟩ := second.untouched other outside
    refine ⟨same'.trans same, ?_, ?_⟩
    · rw [ComponentLog.processed_append, silent, silent']
      rfl
    · rw [ComponentLog.answered_append, unanswered, unanswered']
      rfl
  · intro other
    rw [ComponentLog.accepted_append, first.accepted, second.accepted]
    rfl
  · intro other here
    rw [ComponentLog.processed_append]
    rcases List.mem_cons.mp here with rfl | here
    · rw [first.processed _ (List.mem_singleton_self _), (second.untouched _ fresh).2.1,
        List.append_nil]
    · obtain ⟨same, silent, _⟩ := others other (notFresh other here)
      rw [silent, second.processed other here, same, List.nil_append]
  · intro other here unsent
    rw [ComponentLog.answered_append]
    rcases List.mem_cons.mp here with rfl | here
    · rw [(second.untouched _ fresh).2.2, List.append_nil]
      exact first.answered _ (List.mem_singleton_self _) unsent
    · obtain ⟨same, _, unanswered⟩ := others other (notFresh other here)
      rw [unanswered, List.nil_append, ← same]
      rw [← same] at unsent
      exact second.answered other here unsent

/-- A request that is read, and its response. -/
theorem serveOne_of_request {s : σ × Connections n Req Resp} {id : Fin n} {request : Req}
    {c : Connection Req Resp} {rest : List Req} (taken : (s.2 id).getRequest = some (request, c))
    (views : (s.2 id).Views c (s.2 id).sentRequests rest (s.2 id).sentResponses
      (s.2 id).readableResponses) :
    ∃ (c' : Connection Req Resp) (responses : List Resp), serveOne respond s id =
        (((respond s.1 request).1, Function.update s.2 id c'),
          (id, .processed request) :: responses.map fun response => (id, .answered response)) ∧
      (s.2 id).Views c' (s.2 id).sentRequests rest ((s.2 id).sentResponses ++ responses)
        (s.2 id).readableResponses ∧
      (¬ (0 < (s.2 id).bufferSize ∧ (s.2 id).sentResponses.length = (s.2 id).bufferSize) →
        responses = (respond s.1 request).2.toList) := by
  unfold serveOne
  rw [taken]
  dsimp only
  rcases (respond s.1 request).2 with _ | response
  · refine ⟨c, [], rfl, ?_, fun _ => rfl⟩
    rwa [List.append_nil]
  · rcases c.sendResponse_eq response with ⟨refused, bounded, full⟩ | ⟨c', sent, views', _⟩
    · refine ⟨c, [], ?_, ?_, fun room => ?_⟩
      · simp [refused]
      · rwa [List.append_nil]
      · rw [views.bufferSize] at bounded full
        rw [views.sentResponses] at full
        exact absurd ⟨bounded, full⟩ room
    · refine ⟨c', [response], ?_, ?_, fun _ => rfl⟩
      · simp [sent]
      · rw [← views.sentRequests, ← views.readableRequests, ← views.sentResponses,
          ← views.readableResponses]
        exact views.trans views'

/-- Where no response has been sent there is room for one. -/
theorem room_of_unsent {c : Connection Req Resp} (unsent : c.sentResponses = []) :
    ¬ (0 < c.bufferSize ∧ c.sentResponses.length = c.bufferSize) := by
  rw [unsent, List.length_nil]
  omega

/-- A component with one connection. -/
theorem clockOnce_single (s : σ) (c : Connection Req Resp) (unsent : c.sentResponses = []) :
    ∃ c', (clockOnce respond (s, fun _ : Fin 1 => c)).1.2 0 = c' ∧
      (clockOnce respond (s, fun _ : Fin 1 => c)).1.1 =
        afterRequests respond s (c.readableRequests.take 1) ∧
      c.Views c' c.sentRequests (c.readableRequests.drop 1)
        ((c.readableRequests.take 1).filterMap fun request => (respond s request).2)
        c.readableResponses := by
  have one : clockOnce respond (s, fun _ : Fin 1 => c) =
      ((serveOne respond (s, fun _ : Fin 1 => c) 0).1,
        (serveOne respond (s, fun _ : Fin 1 => c) 0).2 ++ []) := rfl
  rw [one]
  rcases c.getRequest_eq with ⟨none, empty⟩ | ⟨request, c', rest, taken, queue, views⟩
  · have idle : serveOne respond (s, fun _ : Fin 1 => c) 0 = ((s, fun _ => c), []) := by
      unfold serveOne
      rw [none]
    rw [idle, empty]
    exact ⟨c, rfl, rfl, rfl, rfl, empty, unsent, rfl⟩
  · obtain ⟨c'', responses, served, views', answer⟩ :=
      @serveOne_of_request σ Req Resp 1 respond (s, fun _ : Fin 1 => c) 0 request c' rest taken views
    rw [served, queue]
    dsimp only at views' answer ⊢
    have same : (respond s request).2.toList =
        [request].filterMap fun request => (respond s request).2 := by
      rw [List.filterMap_cons]
      rcases (respond s request).2 with _ | response <;> rfl
    rw [unsent, List.nil_append, answer (room_of_unsent unsent), same] at views'
    exact ⟨c'', Function.update_self .., rfl, views'⟩

/-- The responses to requests handled one after the other. -/
def responsesTo : σ → List Req → List Resp
  | _, [] => []
  | s, request :: requests =>
    (respond s request).2.toList ++ responsesTo (respond s request).1 requests

/-- Reading all requests of a connection that has room for as many responses. -/
theorem serveAll_single (requests : List Req) (t : σ × Connections 1 Req Resp)
    (queue : (t.2 0).readableRequests = requests)
    (room : (t.2 0).bufferSize ≠ 0 →
      (t.2 0).sentResponses.length + requests.length ≤ (t.2 0).bufferSize) :
    (Machine.run (serveOne respond) t (List.replicate requests.length 0)).1.1 =
        afterRequests respond t.1 requests ∧
      (t.2 0).Views ((Machine.run (serveOne respond) t (List.replicate requests.length 0)).1.2 0)
        (t.2 0).sentRequests [] ((t.2 0).sentResponses ++ responsesTo respond t.1 requests)
        (t.2 0).readableResponses := by
  induction requests generalizing t with
  | nil => exact ⟨rfl, rfl, rfl, queue, (List.append_nil _).symm, rfl⟩
  | cons request requests ih =>
    rw [List.length_cons] at room
    rcases (t.2 0).getRequest_eq with ⟨_, empty⟩ | ⟨request', c, rest, taken, queue', views⟩
    · rw [empty] at queue
      cases queue
    rw [queue] at queue'
    cases queue'
    obtain ⟨c', responses, served, views', answer⟩ := serveOne_of_request respond taken views
    have answer := answer fun ⟨bounded, full⟩ => by
      have enough := room (Nat.ne_of_gt bounded)
      omega
    have few : responses.length ≤ 1 := by
      rw [answer]
      cases (respond t.1 request).2 <;> simp
    obtain ⟨component, later⟩ := ih
      ((respond t.1 request).1, Function.update t.2 0 c')
      (by
        dsimp only
        rw [Function.update_self]
        exact views'.readableRequests)
      (by
        dsimp only
        rw [Function.update_self, views'.bufferSize, views'.sentResponses, List.length_append]
        intro bounded
        have enough := room bounded
        omega)
    rw [List.length_cons, List.replicate_succ, Machine.run_cons, served]
    dsimp only at component later ⊢
    rw [Function.update_self] at later
    refine ⟨component, ?_⟩
    have both := views'.trans later
    rw [views'.sentRequests, views'.sentResponses, views'.readableResponses, List.append_assoc,
      answer] at both
    exact both

/-- A component with one connection that reads all requests. -/
theorem clockAll_single (s : σ) (c : Connection Req Resp) (unsent : c.sentResponses = []) :
    (clockAll respond (s, fun _ : Fin 1 => c)).1.1 = afterRequests respond s c.readableRequests ∧
      c.Views ((clockAll respond (s, fun _ : Fin 1 => c)).1.2 0) c.sentRequests []
        (responsesTo respond s c.readableRequests) c.readableResponses := by
  have whole := serveAll_single respond c.readableRequests (s, fun _ : Fin 1 => c) rfl fun bounded =>
    by
      rw [unsent, List.length_nil, Nat.zero_add]
      exact (c.requests_length_le bounded).2
  rw [unsent, List.nil_append] at whole
  exact whole

variable (answers : ∀ s request, (respond s request).2.map answered = asked request)

include answers

theorem serveOne_eq (s : σ × Connections n Req Resp) (id : Fin n) :
    Served respond asked answered s (serveOne respond s id).1 [id] (serveOne respond s id).2 := by
  rcases (s.2 id).getRequest_eq with ⟨none, empty⟩ | ⟨request, c, rest, taken, queue, views⟩
  · unfold serveOne
    rw [none]
    refine ⟨?_, fun _ => rfl, fun _ => rfl, fun _ _ => ⟨rfl, rfl, rfl⟩, fun _ => rfl, ?_, ?_⟩
    · simp [firstRequests, empty, afterRequests]
    · intro other here
      cases List.mem_singleton.mp here
      rw [empty]
      rfl
    · intro other here _
      cases List.mem_singleton.mp here
      rw [empty]
      rfl
  · obtain ⟨c', responses, served, views', answer⟩ := serveOne_of_request respond taken views
    rw [served]
    refine ⟨?_, ?_, ?_, ?_, ?_, ?_, ?_⟩
    · simp [firstRequests, queue, afterRequests]
    · exact fun other => (s.2.update_frame id views'.bufferSize views'.sentRequests other).1
    · exact fun other => (s.2.update_frame id views'.bufferSize views'.sentRequests other).2
    · intro other outside
      have different : other ≠ id := fun same => outside (List.mem_singleton.mpr same)
      refine ⟨Function.update_of_ne different c' s.2, ?_, ?_⟩
      · simp [ComponentLog.processed, List.filterMap_map, Ne.symm different]
      · simp [ComponentLog.answered, List.filterMap_map, Ne.symm different]
    · intro other
      simp [ComponentLog.accepted, List.filterMap_map]
    · intro other here
      cases List.mem_singleton.mp here
      simp [queue, ComponentLog.processed, List.filterMap_map]
    · intro other here unsent
      cases List.mem_singleton.mp here
      have sends : ComponentLog.answered id ((id, ComponentEvent.processed request) ::
          responses.map fun response => (id, .answered response)) = responses := by
        simp [ComponentLog.answered, List.filterMap_map]
      rw [sends, answer (room_of_unsent unsent), queue, List.take_succ_cons, List.take_zero,
        List.filterMap_cons, ← answers s.1 request]
      rcases (respond s.1 request).2 with _ | response <;> rfl

theorem serveAll_eq (s : σ × Connections n Req Resp) (ids : List (Fin n)) (distinct : ids.Nodup) :
    Served respond asked answered s (Machine.run (serveOne respond) s ids).1 ids
      (Machine.run (serveOne respond) s ids).2 := by
  induction ids generalizing s with
  | nil =>
    refine ⟨rfl, fun _ => rfl, fun _ => rfl, fun _ _ => ⟨rfl, rfl, rfl⟩, fun _ => rfl, ?_, ?_⟩
    · exact fun _ here => absurd here List.not_mem_nil
    · exact fun _ here => absurd here List.not_mem_nil
  | cons id ids ih =>
    obtain ⟨fresh, distinct⟩ := List.nodup_cons.mp distinct
    rw [Machine.run_cons]
    exact Served.trans respond fresh (serveOne_eq respond answers s id) (ih _ distinct)

theorem clockOnce_eq (s : σ × Connections n Req Resp) :
    Served respond asked answered s (clockOnce respond s).1 (List.finRange n)
      (clockOnce respond s).2 :=
  serveAll_eq respond answers s _ (List.nodup_finRange n)

theorem clockOnce_framed : (clockOnce respond : ComponentClock σ n Req Resp).Framed where
  bufferSize s := (clockOnce_eq respond answers s).bufferSize
  sentRequests s := (clockOnce_eq respond answers s).sentRequests
  accepted s := (clockOnce_eq respond answers s).accepted

end Spec

section Answering

variable {α : Type} (asked : Req → Option α) (answered : Resp → α)

/-- A loop in progress that reads any number of requests of each connection: those it has
read are answered as they ask. -/
structure Answering (before after : σ × Connections n Req Resp) (log : ComponentLog n Req Resp) :
    Prop where
  bufferSize : ∀ id, (after.2 id).bufferSize = (before.2 id).bufferSize
  sentRequests : ∀ id, (after.2 id).sentRequests = (before.2 id).sentRequests
  accepted : ∀ id, log.accepted id = []
  readable : ∀ id, log.processed id ++ (after.2 id).readableRequests =
    (before.2 id).readableRequests
  sentResponses : ∀ id, (after.2 id).sentResponses = log.answered id
  answered : ∀ id, (log.answered id).map answered = (log.processed id).filterMap asked

theorem Answering.refl (s : σ × Connections n Req Resp)
    (unsent : ∀ id, (s.2 id).sentResponses = []) : Answering asked answered s s [] :=
  ⟨fun _ => rfl, fun _ => rfl, fun _ => rfl, fun _ => rfl, unsent, fun _ => rfl⟩

variable {asked answered} {before after : σ × Connections n Req Resp}
  {log : ComponentLog n Req Resp}

/-- A connection has room for a response to each request that can be read. -/
theorem Answering.room (sofar : Answering asked answered before after log) {id : Fin n}
    {request : Req} {rest : List Req} (queue : (after.2 id).readableRequests = request :: rest) :
    ¬ (0 < (after.2 id).bufferSize ∧
      (after.2 id).sentResponses.length = (after.2 id).bufferSize) := by
  rintro ⟨bounded, full⟩
  have limit := ((before.2 id).requests_length_le
    (by rw [← sofar.bufferSize id]; exact Nat.ne_of_gt bounded)).2
  rw [← sofar.readable id, queue, List.length_append, List.length_cons, ← sofar.bufferSize id]
    at limit
  have few := congrArg List.length (sofar.answered id)
  rw [List.length_map] at few
  have most := List.length_filterMap_le asked (log.processed id)
  rw [sofar.sentResponses] at full
  omega

/-- What reading one request adds to the events of a connection. -/
theorem served_events (id other : Fin n) (request : Req) (responses : List Resp) :
    let events : ComponentLog n Req Resp :=
      (id, .processed request) :: responses.map fun response => (id, .answered response)
    events.accepted other = [] ∧
      events.processed other = (if other = id then [request] else []) ∧
      events.answered other = if other = id then responses else [] := by
  dsimp only
  by_cases same : other = id
  · subst same
    simp [ComponentLog.accepted, ComponentLog.processed, ComponentLog.answered,
      List.filterMap_map]
  · simp [ComponentLog.accepted, ComponentLog.processed, ComponentLog.answered,
      List.filterMap_map, Ne.symm same, same]

theorem Answering.next (sofar : Answering asked answered before after log)
    (answers : ∀ request, (respond after.1 request).2.map answered = asked request) (id : Fin n) :
    Answering asked answered before (serveOne respond after id).1
      (log ++ (serveOne respond after id).2) := by
  rcases (after.2 id).getRequest_eq with ⟨none, empty⟩ | ⟨request, c, rest, taken, queue, views⟩
  · unfold serveOne
    rw [none]
    simpa using sofar
  obtain ⟨c', responses, served, views', answer⟩ := serveOne_of_request respond taken views
  rw [served]
  dsimp only
  have sends : responses.map answered = [request].filterMap asked := by
    rw [answer (sofar.room queue), List.filterMap_cons, ← answers request]
    rcases (respond after.1 request).2 with _ | response <;> rfl
  have frame := after.2.update_frame id views'.bufferSize views'.sentRequests
  refine ⟨?_, ?_, ?_, ?_, ?_, ?_⟩ <;> intro other
  · exact (frame other).1.trans (sofar.bufferSize other)
  · exact (frame other).2.trans (sofar.sentRequests other)
  · rw [ComponentLog.accepted_append, sofar.accepted, (served_events id other request _).1]
    rfl
  · rw [ComponentLog.processed_append, (served_events id other request _).2.1,
      ← sofar.readable other]
    dsimp only
    by_cases same : other = id
    · subst same
      rw [if_pos rfl, Function.update_self, views'.readableRequests, queue, List.append_assoc]
      rfl
    · rw [if_neg same, List.append_nil, Function.update_of_ne same]
  · rw [ComponentLog.answered_append, (served_events id other request _).2.2,
      ← sofar.sentResponses other]
    dsimp only
    by_cases same : other = id
    · subst same
      rw [if_pos rfl, Function.update_self, views'.sentResponses]
    · rw [if_neg same, List.append_nil, Function.update_of_ne same]
  · rw [ComponentLog.answered_append, ComponentLog.processed_append, List.map_append,
      List.filterMap_append, sofar.answered, (served_events id other request _).2.2,
      (served_events id other request _).2.1]
    by_cases same : other = id
    · rw [if_pos same, if_pos same, sends]
    · rw [if_neg same, if_neg same]
      rfl

variable {inv : σ → Prop} (keeps : ∀ s request, inv s → inv (respond s request).1)

include keeps

theorem serveOne_keeps {s : σ × Connections n Req Resp} (holds : inv s.1) (id : Fin n) :
    inv (serveOne respond s id).1.1 := by
  unfold serveOne
  split
  · exact holds
  · dsimp only
    split <;> exact keeps _ _ holds

variable (answers : ∀ s request, inv s → (respond s request).2.map answered = asked request)

include answers

/-- Reads of any connections, in any order. -/
theorem Answering.loop (holds : inv after.1) (sofar : Answering asked answered before after log)
    (ids : List (Fin n)) :
    inv (Machine.run (serveOne respond) after ids).1.1 ∧
      Answering asked answered before (Machine.run (serveOne respond) after ids).1
        (log ++ (Machine.run (serveOne respond) after ids).2) := by
  induction ids generalizing after log with
  | nil => exact ⟨holds, by simpa using sofar⟩
  | cons id ids ih =>
    rw [Machine.run_cons, ← List.append_assoc]
    exact ih (serveOne_keeps respond keeps holds id)
      (sofar.next respond (fun request => answers _ request holds) id)

theorem clockAll_answering {s : σ × Connections n Req Resp} (holds : inv s.1)
    (unsent : ∀ id, (s.2 id).sentResponses = []) :
    inv (clockAll respond s).1.1 ∧
      Answering asked answered s (clockAll respond s).1 (clockAll respond s).2 :=
  Machine.run_induction _
    (P := fun t _ log => inv t.1 ∧ Answering asked answered s t log)
    ⟨holds, Answering.refl asked answered s unsent⟩
    (fun _ _ _ _ before => Answering.loop respond keeps answers before.1 before.2 _) _

/-- Over any number of cycles, whatever the clients do, the responses on each connection are
those that the requests read from it ask for. -/
theorem clockAll_cycles (s : σ × Connections n Req Resp) (holds : inv s.1)
    (unsent : ∀ id, (s.2 id).sentResponses = []) (cycles : List (ClientCycle n Req)) (id : Fin n) :
    (ComponentLog.answered id (Machine.run (clockAll respond).cycle s cycles).2).map answered =
      (ComponentLog.processed id (Machine.run (clockAll respond).cycle s cycles).2).filterMap
        asked := by
  have whole := Machine.run_induction (clockAll respond).cycle
    (P := fun t _ log => inv t.1 ∧ (∀ id, (t.2 id).sentResponses = []) ∧
      ∀ id, (ComponentLog.answered id log).map answered =
        (ComponentLog.processed id log).filterMap asked)
    ⟨holds, unsent, fun _ => rfl⟩ (fun t _ log c before => ?_) cycles
  · exact whole.2.2 id
  · obtain ⟨holds, unsent, sofar⟩ := before
    have early := t.2.calls_eq c.before
    have unsent' : ∀ id, ((t.2.calls c.before).1 id).sentResponses = [] :=
      fun id => (early.sentResponses id).trans (unsent id)
    obtain ⟨kept, clocked⟩ := clockAll_answering respond keeps answers
      (s := (t.1, (t.2.calls c.before).1)) holds unsent'
    have late := (clockAll respond (t.1, (t.2.calls c.before).1)).1.2.calls_eq c.after
    refine ⟨kept, fun id => ?_, fun id => ?_⟩
    · simp [ComponentClock.cycle, Connections.posClock]
    · simp [ComponentClock.cycle, sofar, early.processed, early.answered, late.processed,
        late.answered, clocked.answered]

end Answering

section Serves

/-- A clock that changes its component by handling requests, in the order it reads them. -/
def Serves (clock : ComponentClock σ n Req Resp) : Prop :=
  ∀ s, (clock s).1.1 = afterRequests respond s.1 (clock s).2.handled

theorem serveOne_serves (s : σ × Connections n Req Resp) (id : Fin n) :
    (serveOne respond s id).1.1 = afterRequests respond s.1 (serveOne respond s id).2.handled := by
  unfold serveOne
  split
  · rfl
  · dsimp only
    split <;> rfl

/-- What one iteration does, a loop does. -/
theorem Serves.loop {body : σ × Connections n Req Resp → Fin n →
      (σ × Connections n Req Resp) × ComponentLog n Req Resp}
    (serves : ∀ s id, (body s id).1.1 = afterRequests respond s.1 (body s id).2.handled)
    (ids : List (Fin n)) : Serves respond fun s => Machine.run body s ids := fun s =>
  Machine.run_induction body
    (P := fun t _ log => t.1 = afterRequests respond s.1 (ComponentLog.handled log)) rfl
    (fun t _ log id before => by
      rw [serves, before, ComponentLog.handled_append, afterRequests_append]) ids

theorem clockAll_serves : Serves respond (clockAll respond : ComponentClock σ n Req Resp) :=
  Serves.loop respond (fun s _ => Serves.loop respond (serveOne_serves respond) _ s) _

/-- Over any number of cycles a component is what the requests it handled make of it. -/
theorem Serves.cycles {clock : ComponentClock σ n Req Resp} (serves : Serves respond clock)
    (s : σ × Connections n Req Resp) (cycles : List (ClientCycle n Req)) :
    (Machine.run clock.cycle s cycles).1.1 =
      afterRequests respond s.1 (ComponentLog.handled (Machine.run clock.cycle s cycles).2) :=
  Machine.run_induction clock.cycle
    (P := fun t _ log => t.1 = afterRequests respond s.1 (ComponentLog.handled log)) rfl
    (fun t _ log c before => by
      have cycle : (clock.cycle t c).2.handled =
          (clock (t.1, (t.2.calls c.before).1)).2.handled := by
        simp [ComponentClock.cycle, Connections.calls_handled]
      rw [ComponentLog.handled_append, afterRequests_append, ← before, cycle]
      exact serves _) cycles

end Serves

end Sinuca3.Source
