import Sinuca3.Guarantees.BufferSizes
import Sinuca3.Guarantees.QueueLossless
import Sinuca3.Lib.DelayLine
import Sinuca3.Source.StdComponents.DelayQueue

/-!
# The delay of a delay queue

What a delay queue holds is a delay line of the messages read in each of the last cycles.
This is so as long as the removal cycles, which are sums of 64 bits, compare as they would
without a limit.
-/
namespace Sinuca3.Guarantees
open Sinuca3.Source Lib

variable {α δ : Type} {n : Nat}

/-- The line of batches as inputs, the first of which is due in the next cycle. -/
def scheduled (now : Nat) : List (List α) → List (DelayInput α)
  | [] => []
  | batch :: stages =>
    batch.map (⟨·, BitVec.ofNat 64 (now + 1)⟩) ++ scheduled (now + 1) stages

/-- Between two cycles the clock does not reach or pass the second, as 64 bits see it. -/
def Compares (now removal : Nat) : Prop :=
  ∀ m, now < m → m < removal → m % 2 ^ 64 < removal % 2 ^ 64

/-- A removal cycle computed at this time is not wrapped around before the clock is. -/
def Timely (delay : Nat) (cyclesClock : BitVec 64) : Prop :=
  cyclesClock.toNat + delay < 2 ^ 64 ∨ cyclesClock.toNat = 2 ^ 64 - 1

/-- After so many cycles a delay queue holds the batches of a line. -/
structure Delays (delay throughput now : Nat) (q : DelayQueue α) (stages : List (List α)) :
    Prop where
  length : stages.length = delay
  shows : q.Shows delay throughput (BitVec.ofNat 64 now) (scheduled now stages) []
  few : ∀ batch ∈ stages, batch.length ≤ throughput
  compares : ∀ j batch, stages[j]? = some batch → batch ≠ [] → Compares now (now + 1 + j)

theorem compares_of_timely {delay now : Nat} (small : delay < 2 ^ 64)
    (timely : Timely delay (BitVec.ofNat 64 now)) : Compares now (now + delay) := by
  intro m after before
  unfold Timely at timely
  rw [BitVec.toNat_ofNat] at timely
  omega

theorem Compares.later {now removal : Nat} (compares : Compares now removal) :
    Compares (now + 1) removal :=
  fun m after before => compares m (by omega) before

theorem length_scheduled (now throughput : Nat) (stages : List (List α))
    (few : ∀ batch ∈ stages, batch.length ≤ throughput) :
    (scheduled now stages).length ≤ stages.length * throughput := by
  induction stages generalizing now with
  | nil => exact Nat.zero_le _
  | cons batch stages ih =>
    have first := few batch (List.mem_cons_self ..)
    have rest := ih (now + 1) fun other member => few other (List.mem_cons_of_mem batch member)
    unfold scheduled
    rw [List.length_append, List.length_map, List.length_cons, Nat.succ_mul]
    omega

/-- The last batch is due after as many cycles as the line is long. -/
theorem scheduled_concat (now : Nat) (stages : List (List α)) (batch : List α) :
    scheduled now (stages ++ [batch]) = scheduled now stages ++
      batch.map (⟨·, BitVec.ofNat 64 (now + (stages.length + 1))⟩) := by
  induction stages generalizing now with
  | nil =>
    change batch.map _ ++ [] = _
    rw [List.append_nil]
    rfl
  | cons first stages ih =>
    rw [List.cons_append]
    unfold scheduled
    rw [ih, List.append_assoc, List.length_cons,
      show now + 1 + (stages.length + 1) = now + (stages.length + 1 + 1) by omega]

/-- The first input of a line is that of a batch with messages. -/
theorem head_scheduled {now : Nat} {stages : List (List α)} {input : DelayInput α}
    (first : input ∈ (scheduled now stages).head?) :
    ∃ j batch, stages[j]? = some batch ∧ batch ≠ [] ∧
      input.removeAt = BitVec.ofNat 64 (now + 1 + j) := by
  induction stages generalizing now with
  | nil => cases first
  | cons batch stages ih =>
    cases batch with
    | nil =>
      obtain ⟨j, batch, here, some, removal⟩ := ih first
      refine ⟨j + 1, batch, here, some, ?_⟩
      rw [removal]
      congr 1
      omega
    | cons elem batch =>
      refine ⟨0, elem :: batch, rfl, List.cons_ne_nil _ _, ?_⟩
      cases first
      rfl

section Cycle

variable [Inhabited α] {delay throughput now : Nat} {q : DelayQueue α} {stages : List (List α)}

/-- A clock moves the line: what comes out is sent, what is read goes in. -/
theorem Delays.clock (delays : Delays delay throughput now q stages)
    {connections : Connections n α α}
    (few : (Queue.waiting connections (List.finRange n)).length ≤ throughput)
    (timely : Queue.waiting connections (List.finRange n) ≠ [] →
      Timely delay (BitVec.ofNat 64 (now + 1))) :
    ∃ q' connections' out,
      DelayQueue.clock (q, connections) =
        ((q', connections'),
          { received := DelayQueue.readings connections (List.finRange n), sent := out }) ∧
      (DelayLine.step stages (Queue.waiting connections (List.finRange n))).2 = [out] ∧
      q'.Shows delay throughput (BitVec.ofNat 64 (now + 1))
        (scheduled (now + 1)
          (DelayLine.step stages (Queue.waiting connections (List.finRange n))).1) out ∧
      (∀ j batch,
        (DelayLine.step stages (Queue.waiting connections (List.finRange n))).1[j]? = some batch →
        batch ≠ [] → Compares (now + 1) (now + 1 + 1 + j)) := by
  have clock : BitVec.ofNat 64 now + 1 = BitVec.ofNat 64 (now + 1) := by
    rw [BitVec.ofNat_add]
    rfl
  cases stages with
  | nil =>
    have none : delay = 0 := delays.length.symm
    subst none
    have shows : q.Shows 0 throughput (BitVec.ofNat 64 now)
        (([] : List α).map (⟨·, BitVec.ofNat 64 now + 1⟩) ++ []) [] := delays.shows
    have room : DelayQueue.Room 0 throughput ([] : List (DelayInput α)) ([] : List α)
        (Queue.waiting connections (List.finRange n)).length := by
      unfold DelayQueue.Room
      rw [if_neg (by omega), List.length_nil]
      omega
    obtain ⟨q', connections', result, after⟩ :=
      shows.clock (fun input first => by cases first) (fun _ => rfl) (Nat.zero_le _) room
    rw [clock] at after
    exact ⟨q', connections', _, result, rfl, after, fun j batch here => by cases here⟩
  | cons due stages =>
    have length : stages.length + 1 = delay := delays.length
    have shows : q.Shows delay throughput (BitVec.ofNat 64 now)
        (due.map (⟨·, BitVec.ofNat 64 now + 1⟩) ++ scheduled (now + 1) stages) [] := by
      rw [clock]
      exact delays.shows
    have early : ∀ input ∈ (scheduled (now + 1) stages).head?,
        BitVec.ofNat 64 now + 1 < input.removeAt := by
      intro input first
      obtain ⟨j, batch, here, some, removal⟩ := head_scheduled first
      have compares := delays.compares (j + 1) batch here some (now + 1) (by omega) (by omega)
      rw [removal, clock, BitVec.lt_def, BitVec.toNat_ofNat, BitVec.toNat_ofNat,
        show now + 1 + 1 + j = now + 1 + (j + 1) by omega]
      exact compares
    have size := length_scheduled (now + 1) throughput stages
      fun batch member => delays.few batch (List.mem_cons_of_mem due member)
    have room : DelayQueue.Room delay throughput (scheduled (now + 1) stages) due
        (Queue.waiting connections (List.finRange n)).length := by
      have most : stages.length * throughput ≤ delay * throughput :=
        Nat.mul_le_mul_right throughput (by omega)
      unfold DelayQueue.Room
      rw [if_pos (by omega)]
      omega
    obtain ⟨q', connections', result, after⟩ := shows.clock early (by omega)
      (delays.few due (List.mem_cons_self ..)) room
    have nothing : DelayQueue.passed delay (Queue.waiting connections (List.finRange n)) = [] := by
      unfold DelayQueue.passed
      rw [if_pos (by omega)]
    have all : DelayQueue.kept delay (BitVec.ofNat 64 (now + 1))
        (Queue.waiting connections (List.finRange n)) =
          (Queue.waiting connections (List.finRange n)).map
            (⟨·, BitVec.ofNat 64 (now + 1 + (stages.length + 1))⟩) := by
      unfold DelayQueue.kept
      rw [if_pos (by omega), ← BitVec.ofNat_add, length]
    rw [nothing, List.append_nil] at result after
    rw [clock, all, ← scheduled_concat] at after
    refine ⟨q', connections', due, result, rfl, after, fun j batch here some => ?_⟩
    change (stages ++ [Queue.waiting connections (List.finRange n)])[j]? = _ at here
    rw [List.getElem?_append] at here
    split at here
    · have compares := delays.compares (j + 1) batch here some
      rw [show now + 1 + 1 + j = now + 1 + (j + 1) by omega]
      exact compares.later
    · rename_i behind
      have last : j = stages.length := by
        rcases Nat.lt_or_ge stages.length j with beyond | atMost
        · rw [List.getElem?_eq_none (by rw [List.length_singleton]; omega)] at here
          cases here
        · omega
      rw [last, Nat.sub_self] at here
      cases here
      have compares := compares_of_timely shows.small (timely some)
      rw [show now + 1 + 1 + j = now + 1 + delay by omega]
      exact compares

/-- The same of a whole cycle, whatever the clients and the next component do. -/
theorem Delays.cycle (S : Server δ α α) (first : Bool)
    {s : (DelayQueue α × δ) × Connections n α α} (delays : Delays delay throughput now s.1.1 stages)
    (few : (Queue.waiting s.2 (List.finRange n)).length ≤ throughput)
    (timely : Queue.waiting s.2 (List.finRange n) ≠ [] →
      Timely delay (BitVec.ofNat 64 (now + 1)))
    (c : ClientCycle n α) :
    ∃ report : DelayReport n α, (DelayQueue.cycle S first s c).2 = [report] ∧
      report.failures = 0 ∧ report.messages = Queue.waiting s.2 (List.finRange n) ∧
      (DelayLine.step stages (Queue.waiting s.2 (List.finRange n))).2 = [report.sent] ∧
      Delays delay throughput (now + 1) (DelayQueue.cycle S first s c).1.1.1
        (DelayLine.step stages (Queue.waiting s.2 (List.finRange n))).1 := by
  obtain ⟨⟨q, d⟩, connections⟩ := s
  dsimp only at delays few timely ⊢
  have waits : Queue.waiting (connections.calls c.before).1 (List.finRange n) =
      Queue.waiting connections (List.finRange n) :=
    List.flatMap_congr fun id _ => (connections.calls_eq c.before).readableRequests id
  obtain ⟨d', sendTo, early, limit, unsent⟩ : ∃ d' sendTo,
      (if first then S.clock d q.sendTo else (d, q.sendTo)) = (d', sendTo) ∧
        sendTo.bufferSize = q.sendTo.bufferSize ∧ sendTo.sentRequests = [] := by
    cases first
    · exact ⟨d, q.sendTo, rfl, rfl, delays.shows.sent⟩
    · exact ⟨_, _, rfl, S.bufferSize d q.sendTo,
        (S.sentRequests d q.sendTo).trans delays.shows.sent⟩
  have reconnected : Delays delay throughput now { q with sendTo } stages :=
    ⟨delays.length, delays.shows.reconnect limit unsent, delays.few, delays.compares⟩
  rw [← waits] at few timely ⊢
  obtain ⟨q', connections', out, result, emitted, after, compares⟩ :=
    reconnected.clock few timely
  obtain ⟨d'', sendTo', late, limit'⟩ : ∃ d'' sendTo',
      (if first then (d', q'.sendTo) else S.clock d' q'.sendTo) = (d'', sendTo') ∧
        sendTo'.bufferSize = q'.sendTo.bufferSize := by
    cases first
    · exact ⟨_, _, rfl, S.bufferSize d' q'.sendTo⟩
    · exact ⟨d', q'.sendTo, rfl, rfl⟩
  have whole : DelayQueue.cycle S first ((q, d), connections) c =
      ((({ q' with sendTo := sendTo'.swapBuffers }, d''),
        (connections'.calls c.after).1.posClock),
        [{ received := DelayQueue.readings (connections.calls c.before).1 (List.finRange n),
           sent := out }]) := by
    unfold DelayQueue.cycle
    dsimp only
    rw [early]
    dsimp only
    rw [result]
    dsimp only
    rw [late]
  rw [whole]
  refine ⟨_, rfl, rfl, DelayQueue.messages_readings _ _, emitted, ?_, ?_, ?_, compares⟩
  · rw [DelayLine.length_step]
    exact delays.length
  · exact after.reconnect limit' (Connection.sentRequests_swap sendTo')
  · intro batch member
    rcases List.mem_append.mp (List.mem_of_mem_tail member) with old | new
    · exact delays.few batch old
    · rw [List.mem_singleton.mp new]
      exact few

end Cycle

/-- A delay queue whose clients have connected with buffers of any sizes. -/
def delayed [Inhabited α] (q : DelayQueue α) (destination : δ) (bufferSizes : Fin n → Nat) :
    (DelayQueue α × δ) × Connections n α α :=
  ((q, destination), fun id => .connect (bufferSizes id))

/-- Of messages that wait, there are no more than the throughput, and they are not read in
a cycle from which the removal wraps around before the clock. -/
def WithinLimits (delay throughput : Nat) (s : (DelayQueue α × δ) × Connections n α α) : Prop :=
  (Queue.waiting s.2 (List.finRange n)).length ≤ throughput ∧
    (Queue.waiting s.2 (List.finRange n) ≠ [] → Timely delay (s.1.1.cyclesClock + 1))

instance [DecidableEq α] (delay throughput : Nat) (s : (DelayQueue α × δ) × Connections n α α) :
    Decidable (WithinLimits delay throughput s) :=
  inferInstanceAs (Decidable (_ ∧ (_ → _ ∨ _)))

/-- What is sent in a cycle, for so many cycles of delay: the messages read that many
cycles before, in the same order. -/
def Delivered (delay : Nat) (log : List (DelayReport n α)) : Prop :=
  ∀ c report, log[c]? = some report → report.failures = 0 ∧
    (c < delay → report.sent = []) ∧
    ∀ earlier, delay ≤ c → log[c - delay]? = some earlier → report.sent = earlier.messages

/-- What a queue has sent is what came out of a line of empty batches, and the queue holds
the batches still in it. -/
structure Trails (delay throughput : Nat) (q : DelayQueue α) (log : List (DelayReport n α))
    (stages : List (List α)) : Prop where
  run : Machine.run DelayLine.step (List.replicate delay []) (log.map DelayReport.messages) =
    (stages, log.map DelayReport.sent)
  delays : Delays delay throughput log.length q stages
  accepted : ∀ report ∈ log, report.failures = 0

theorem scheduled_replicate (now delay : Nat) :
    scheduled now (List.replicate delay ([] : List α)) = [] := by
  induction delay generalizing now with
  | zero => rfl
  | succ delay ih => exact ih (now + 1)

theorem trails_nil {delay throughput : Nat} {q : DelayQueue α}
    (shows : q.Shows delay throughput 0 [] []) :
    Trails delay throughput q ([] : List (DelayReport n α)) (List.replicate delay []) where
  run := rfl
  delays :=
    { length := List.length_replicate
      shows := by
        rw [scheduled_replicate]
        exact shows
      few := by
        intro batch member
        rw [List.eq_of_mem_replicate member]
        exact Nat.zero_le _
      compares := by
        intro j batch here some
        exact absurd (List.eq_of_mem_replicate (List.mem_of_getElem? here)) some }
  accepted report member := by cases member

theorem Trails.cycle [Inhabited α] {delay throughput : Nat}
    {s : (DelayQueue α × δ) × Connections n α α} {log : List (DelayReport n α)}
    {stages : List (List α)} (trails : Trails delay throughput s.1.1 log stages)
    (within : WithinLimits delay throughput s) (S : Server δ α α) (first : Bool)
    (c : ClientCycle n α) :
    ∃ stages, Trails delay throughput (DelayQueue.cycle S first s c).1.1.1
      (log ++ (DelayQueue.cycle S first s c).2) stages := by
  obtain ⟨few, timely⟩ := within
  have clock : s.1.1.cyclesClock + 1 = BitVec.ofNat 64 (log.length + 1) := by
    rw [trails.delays.shows.clocked, BitVec.ofNat_add]
    rfl
  rw [clock] at timely
  obtain ⟨report, only, accepted, messages, sent, delays⟩ :=
    trails.delays.cycle S first few timely c
  rw [only]
  refine ⟨(DelayLine.step stages (Queue.waiting s.2 (List.finRange n))).1, ?_, ?_, ?_⟩
  · rw [List.map_append, List.map_append, List.map_singleton, List.map_singleton,
      Machine.run_concat, trails.run, messages]
    dsimp only
    rw [sent]
  · rw [List.length_append]
    exact delays
  · intro other member
    rcases List.mem_append.mp member with old | new
    · exact trails.accepted other old
    · rw [List.mem_singleton.mp new]
      exact accepted

theorem Trails.delivered {delay throughput : Nat} {q : DelayQueue α}
    {log : List (DelayReport n α)} {stages : List (List α)}
    (trails : Trails delay throughput q log stages) : Delivered delay log := by
  intro c report here
  have inside : c < (log.map DelayReport.messages).length := by
    rw [List.length_map]
    exact (List.getElem?_eq_some_iff.mp here).1
  have out := DelayLine.getElem?_run (List.replicate delay []) _ inside
  rw [trails.run, List.getElem?_map, here, List.length_replicate] at out
  refine ⟨trails.accepted report (List.mem_of_getElem? here), fun before => ?_,
    fun earlier after entry => ?_⟩
  · rw [if_pos before, List.getElem?_replicate, if_pos before] at out
    exact Option.some.inj out
  · rw [if_neg (by omega), List.getElem?_map, entry] at out
    exact Option.some.inj out

/-- What is allocated for the connection to `sendTo`, and for the delay buffer if there is
one, for messages and inputs of so many octets. -/
structure DelayAllocated (delay throughput : Int) (messageSize inputSize : Nat) : Prop where
  message : 0 < messageSize
  input : 0 < inputSize
  sent : throughput * messageSize < 2147483648
  held : 1 ≤ delay → (delay * throughput + throughput - 1) * inputSize < 2147483648

/-- Such sizes are those of an `int`. -/
theorem DelayAllocated.fits {delay throughput : Int} {messageSize inputSize : Nat}
    (allocated : DelayAllocated delay throughput messageSize inputSize) (natural : 0 ≤ delay)
    (positive : 1 ≤ throughput) : delay * throughput + throughput - 1 < 2147483648 := by
  obtain ⟨message, input, sent, held⟩ := allocated
  have product : 0 ≤ delay * throughput := Int.mul_nonneg natural (by omega)
  rcases Int.lt_or_eq_of_le natural with delayed | none
  · have slots := @CircularBufferExtent.count_le (delay * throughput + throughput - 1) inputSize
      (by omega) (by omega)
    exact Int.lt_of_le_of_lt slots (held delayed)
  · have slots := @CircularBufferExtent.count_le throughput messageSize (by omega) (by omega)
    rw [← none, Int.zero_mul]
    omega

theorem DelayAllocated.inside {delay throughput : Int} {messageSize inputSize : Nat}
    (allocated : DelayAllocated delay throughput messageSize inputSize)
    (positive : 1 ≤ throughput) :
    (∀ ops, EnqueuesInside throughput messageSize ops) ∧
      (1 ≤ delay → ∀ ops,
        EnqueuesInside (delay * throughput + throughput - 1) inputSize ops) := by
  obtain ⟨message, input, sent, held⟩ := allocated
  refine ⟨(CircularBufferExtent.limited_inside_iff (by omega) (by omega)).mpr ⟨positive, sent⟩,
    fun delayed => ?_⟩
  have product : 1 * throughput ≤ delay * throughput :=
    Int.mul_le_mul_of_nonneg_right delayed (by omega)
  exact (CircularBufferExtent.limited_inside_iff (by omega) (by omega)).mpr
    ⟨by omega, held delayed⟩

/-- For every delay, throughput, number of clients and run in which no more messages wait
than the throughput, with buffers whose octets an `int` counts: what is read in a cycle is
sent once, so many cycles later, in the order of arrival, and nothing is refused, unless it
is read in one of the cycles before the clock wraps around from which the delay reaches
beyond that; and nothing that is done with the buffers writes outside them. -/
theorem delay_queue_delivers [Inhabited α] {delay : Option Int} {throughput : Int}
    {messageSize inputSize : Nat} (positive : 1 ≤ throughput)
    (allocated : DelayAllocated (delay.getD 0) throughput messageSize inputSize)
    {q : DelayQueue α} (configured : DelayQueue.configure delay throughput = .ok q)
    (S : Server δ α α) (first : Bool) (destination : δ) (bufferSizes : Fin n → Nat)
    (cycles : List (ClientCycle n α))
    (within : Machine.Meets (DelayQueue.cycle S first)
      (fun s _ => WithinLimits (delay.getD 0).toNat throughput.toNat s)
      (delayed q destination bufferSizes) cycles) :
    Delivered (delay.getD 0).toNat
      (Machine.run (DelayQueue.cycle S first) (delayed q destination bufferSizes) cycles).2 ∧
    (∀ ops, EnqueuesInside throughput messageSize ops) ∧
    (1 ≤ delay.getD 0 → ∀ ops,
      EnqueuesInside (delay.getD 0 * throughput + throughput - 1) inputSize ops) := by
  refine ⟨?_, allocated.inside positive⟩
  have fits := allocated.fits (DelayQueue.configure_eq configured).1 positive
  have start := trails_nil (n := n) (DelayQueue.shows_configure configured positive fits)
  obtain ⟨stages, trails⟩ := Machine.run_induction_of_meets (DelayQueue.cycle S first)
    (fun s _ => WithinLimits (delay.getD 0).toNat throughput.toNat s)
    (P := fun t _ log => ∃ stages,
      Trails (delay.getD 0).toNat throughput.toNat t.1.1 log stages)
    ⟨_, start⟩
    (fun t _ log c ⟨_, trails⟩ within => trails.cycle within S first c) cycles within
  exact trails.delivered

/-- A message that is sent in the first of four cycles. -/
def oneMessage (client : Fin 1) : List (ClientCycle 1 Nat) :=
  [⟨[.sendRequest client 7], []⟩, ⟨[], []⟩, ⟨[], []⟩, ⟨[], []⟩]

/-- With a delay of two cycles, in inputs of 16 octets: it is read in the second cycle and
sent in the fourth. -/
theorem delay_queue_delivers_after_two : ∃ q : DelayQueue Nat,
    DelayQueue.configure (some 2) 1 = .ok q ∧
      (Machine.run (DelayQueue.cycle reader true) (delayed q () fun _ : Fin 1 => 1)
        (oneMessage 0)).2.map DelayReport.sent = [[], [], [], [7]] ∧
      Delivered 2 (Machine.run (DelayQueue.cycle reader true) (delayed q () fun _ : Fin 1 => 1)
        (oneMessage 0)).2 := by
  have allocated : DelayAllocated 2 1 8 16 := ⟨by decide, by decide, by decide, fun _ => by decide⟩
  refine ⟨_, rfl, by decide, ?_⟩
  exact (@delay_queue_delivers Nat Unit 1 _ (some 2) 1 8 16 (by decide) allocated _ rfl reader
    true () (fun _ => 1) (oneMessage 0) ⟨by decide, by decide, by decide, by decide, trivial⟩).1

/-- A queue of two cycles of delay that has been idle for so many cycles. -/
def idleFor (cycles : Nat) : (DelayQueue Nat × Unit) × Connections 1 Nat Nat :=
  delayed {
    queueFirst := default
    delayBufferSize := 2
    delayBuffer := .allocate 2
    sendTo := .connect 1
    cyclesClock := BitVec.ofNat 64 cycles
    occupation := 0
    throughput := 1
    delay := 2 } () fun _ => 1

theorem idle_cycle (cycles : Nat) :
    DelayQueue.cycle reader true (idleFor cycles) ⟨[], []⟩ = (idleFor (cycles + 1), [{}]) := by
  have swapped : DelayQueue.cycle reader true (idleFor cycles) ⟨[], []⟩ =
      (((({ (idleFor cycles).1.1 with
          cyclesClock := BitVec.ofNat 64 cycles + 1
          sendTo := (Connection.connect 1).swapBuffers }), ()),
        fun _ => (Connection.connect 1).swapBuffers), [{}]) := rfl
  have clock : BitVec.ofNat 64 cycles + 1 = BitVec.ofNat 64 (cycles + 1) := by
    rw [BitVec.ofNat_add]
    rfl
  rw [swapped, Connection.swapBuffers_connect, clock]
  rfl

theorem idle_run (start cycles : Nat) :
    Machine.run (DelayQueue.cycle reader true) (idleFor start)
        (List.replicate cycles ⟨[], []⟩) =
      (idleFor (start + cycles), List.replicate cycles {}) ∧
    Machine.Meets (DelayQueue.cycle reader true)
      (fun s _ => (Queue.waiting s.2 (List.finRange 1)).length ≤ 1) (idleFor start)
      (List.replicate cycles ⟨[], []⟩) := by
  induction cycles generalizing start with
  | zero => exact ⟨rfl, trivial⟩
  | succ cycles ih =>
    obtain ⟨run, meets⟩ := ih (start + 1)
    rw [List.replicate_succ, List.replicate_succ, Machine.run_cons, idle_cycle]
    dsimp only
    rw [run, show start + 1 + cycles = start + (cycles + 1) by omega]
    refine ⟨rfl, Nat.zero_le 1, ?_⟩
    rw [idle_cycle]
    exact meets

/-- A message that is sent after so many cycles that it is read in the last but one before
the clock of 64 bits starts again. -/
def lastMessage (client : Fin 1) : List (ClientCycle 1 Nat) :=
  List.replicate 18446744073709551612 ⟨[], []⟩ ++
    [⟨[.sendRequest client 7], []⟩, ⟨[], []⟩, ⟨[], []⟩]

/-- It is sent one cycle after that, not two. And of the 134217728 inputs of 16 octets that
as many cycles of delay take, none is allocated, and the first that is put there is written
outside. -/
theorem delay_wraps_around :
    (∃ q : DelayQueue Nat, DelayQueue.configure (some 2) 1 = .ok q ∧
      Machine.Meets (DelayQueue.cycle reader true)
        (fun s _ => (Queue.waiting s.2 (List.finRange 1)).length ≤ 1)
        (delayed q () fun _ : Fin 1 => 1) (lastMessage 0) ∧
      ¬ Delivered 2 (Machine.run (DelayQueue.cycle reader true)
        (delayed q () fun _ : Fin 1 => 1) (lastMessage 0)).2) ∧
    ¬ EnqueuesInside (134217728 * 1 + 1 - 1) 16 [.enqueue] := by
  refine ⟨⟨_, rfl, ?_⟩, fun inside => absurd (inside false (by decide)) (by decide)⟩
  obtain ⟨run, meets⟩ := idle_run 0 18446744073709551612
  rw [Nat.zero_add] at run
  have last : Machine.run (DelayQueue.cycle reader true) (idleFor 18446744073709551612)
      [⟨[.sendRequest 0 7], []⟩, ⟨[], []⟩, ⟨[], []⟩] =
        (_, [{}, { received := [(0, 7)] }, { sent := [7] }]) := rfl
  constructor
  · refine (Machine.meets_append _ _ _ _ _).mpr ⟨meets, ?_⟩
    change Machine.Meets _ _ (Machine.run (DelayQueue.cycle reader true) (idleFor 0) _).1 _
    rw [run]
    exact ⟨by decide, by decide, by decide, trivial⟩
  · intro delivered
    unfold lastMessage at delivered
    change Delivered 2 (Machine.run (DelayQueue.cycle reader true) (idleFor 0) _).2 at delivered
    rw [Machine.run_append, run] at delivered
    dsimp only at delivered
    rw [last] at delivered
    -- The entries of the last three cycles do not depend on how many are before them.
    generalize 18446744073709551612 = cycles at delivered
    have here : (List.replicate cycles (⟨[], [], 0⟩ : DelayReport 1 Nat) ++
        [⟨[], [], 0⟩, ⟨[(0, 7)], [], 0⟩, ⟨[], [7], 0⟩])[cycles + 2]? =
          some ⟨[], [7], 0⟩ := by
      rw [List.getElem?_append_right (by rw [List.length_replicate]; omega),
        List.length_replicate, Nat.add_sub_cancel_left]
      rfl
    have before : (List.replicate cycles (⟨[], [], 0⟩ : DelayReport 1 Nat) ++
        [⟨[], [], 0⟩, ⟨[(0, 7)], [], 0⟩, ⟨[], [7], 0⟩])[cycles + 2 - 2]? =
          some ⟨[], [], 0⟩ := by
      rw [List.getElem?_append_right (by rw [List.length_replicate]; omega),
        List.length_replicate, Nat.add_sub_cancel, Nat.sub_self]
      rfl
    have sent := (delivered _ _ here).2.2 _ (by omega) before
    cases sent

end Sinuca3.Guarantees
