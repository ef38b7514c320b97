import Sinuca3.Lib.Machine

/-!
# Double-buffered mailboxes

One direction of a clocked message channel: the sender puts messages in an
outbox of bounded size (capacity zero means unbounded), the receiver takes
messages from an inbox, and a flip turns the outbox into the next inbox and
throws away what the receiver did not take. Puts, takes and flips come in any
order. The log of a run is cut in epochs by its flips, and `OneCycle` says what
a log may contain: a message is readable during the epoch after the one it was
put in, once, in order, and never later.
-/
namespace Lib.Mailbox
open Lib.Machine

structure Box (α : Type) where
  capacity : Nat
  outbox : List α
  inbox : List α

inductive Op (α : Type) where
  | put (message : α)
  | take
  | flip

inductive Event (α : Type) where
  | put (message : α) (accepted : Bool)
  | took (answer : Option α)
  | flip
  deriving DecidableEq

variable {α : Type}

/-- A mailbox on which nothing has been done. -/
def empty (capacity : Nat) : Box α := ⟨capacity, [], []⟩

def Box.Full (m : Box α) : Prop := 0 < m.capacity ∧ m.outbox.length = m.capacity

instance (m : Box α) : Decidable m.Full := inferInstanceAs (Decidable (_ ∧ _))

def step (m : Box α) : Op α → Box α × List (Event α)
  | .put x =>
    if m.Full then (m, [.put x false])
    else ({ m with outbox := m.outbox ++ [x] }, [.put x true])
  | .take => ({ m with inbox := m.inbox.tail }, [.took m.inbox.head?])
  | .flip => ({ m with outbox := [], inbox := m.outbox }, [.flip])

/-- Number of flips in a log. -/
def epoch : List (Event α) → Nat
  | [] => 0
  | .flip :: es => epoch es + 1
  | _ :: es => epoch es

/-- What one event adds to the accepted messages. -/
def acceptedBy : Event α → List α
  | .put x true => [x]
  | _ => []

/-- What one event adds to the taken messages. -/
def takenBy : Event α → List α
  | .took (some x) => [x]
  | _ => []

/-- The part of a per-event history that falls in epoch `c`, oldest first. -/
def during (part : Event α → List α) : List (Event α) → Nat → List α
  | [], _ => []
  | .flip :: _, 0 => []
  | .flip :: es, c + 1 => during part es c
  | e :: es, 0 => part e ++ during part es 0
  | _ :: es, c + 1 => during part es (c + 1)

/-- Messages whose put was accepted in epoch `c`. -/
def accepted (log : List (Event α)) (c : Nat) : List α := during acceptedBy log c

/-- Messages taken in epoch `c`. -/
def taken (log : List (Event α)) (c : Nat) : List α := during takenBy log c

/-- Messages the receiver may see in epoch `c`: those of the epoch before. -/
def readable (log : List (Event α)) : Nat → List α
  | 0 => []
  | c + 1 => accepted log c

/-- What justifies one event after a log, for a mailbox of capacity `b`. -/
def Justified (b : Nat) (log : List (Event α)) : Event α → Prop
  | .put _ ok => ok = false ↔ 0 < b ∧ (accepted log (epoch log)).length = b
  | .took answer => answer = (readable log (epoch log))[(taken log (epoch log)).length]?
  | .flip => True

/-- A one-cycle mailbox log: the messages taken in an epoch are a prefix of
those accepted in the epoch before, a put is refused exactly when the capacity
is exhausted, and a take answers the first message not taken yet, if any. -/
structure OneCycle (b : Nat) (log : List (Event α)) : Prop where
  delivery : ∀ c, taken log c <+: readable log c
  explained : Explained (Justified b) log

theorem epoch_append (log es : List (Event α)) : epoch (log ++ es) = epoch log + epoch es := by
  induction log with
  | nil => simp [epoch]
  | cons e log ih =>
    cases e with
    | flip => simp only [List.cons_append, epoch, ih]; omega
    | put x ok => simpa [epoch] using ih
    | took x => simpa [epoch] using ih

/-- Epochs after the last flip are empty. -/
theorem during_of_epoch_lt (part : Event α → List α) (log : List (Event α)) (c : Nat)
    (late : epoch log < c) : during part log c = [] := by
  induction log generalizing c with
  | nil => rfl
  | cons e log ih =>
    cases c with
    | zero => omega
    | succ c =>
      cases e with
      | flip => exact ih c (by simpa [epoch] using late)
      | put x ok => exact ih (c + 1) (by simpa [epoch] using late)
      | took x => exact ih (c + 1) (by simpa [epoch] using late)

/-- An event that is not a flip adds its part to the current epoch only. -/
theorem during_concat (part : Event α → List α) (silent : part .flip = [])
    (log : List (Event α)) (e : Event α) (c : Nat) :
    during part (log ++ [e]) c =
      during part log c ++ if c = epoch log then part e else [] := by
  induction log generalizing c with
  | nil => cases e <;> cases c <;> simp [during, epoch, silent]
  | cons d log ih =>
    cases d with
    | flip => cases c <;> simp [during, epoch, ih]
    | put x ok => cases c <;> simp [during, ih] <;> rfl
    | took x => cases c <;> simp [during, ih] <;> rfl

theorem accepted_concat (log : List (Event α)) (e : Event α) (c : Nat) :
    accepted (log ++ [e]) c = accepted log c ++ if c = epoch log then acceptedBy e else [] :=
  during_concat acceptedBy rfl log e c

theorem taken_concat (log : List (Event α)) (e : Event α) (c : Nat) :
    taken (log ++ [e]) c = taken log c ++ if c = epoch log then takenBy e else [] :=
  during_concat takenBy rfl log e c

/-- A message put in the current epoch is readable only in the next one. -/
theorem readable_concat (log : List (Event α)) (e : Event α) (c : Nat) (now : c ≤ epoch log) :
    readable (log ++ [e]) c = readable log c := by
  cases c with
  | zero => rfl
  | succ c => simp [readable, accepted_concat, show c ≠ epoch log by omega]

/-- What the state of a mailbox remembers of its log. -/
structure Remembers (b : Nat) (m : Box α) (log : List (Event α)) : Prop where
  capacity : m.capacity = b
  outbox : m.outbox = accepted log (epoch log)
  inbox : taken log (epoch log) ++ m.inbox = readable log (epoch log)

theorem remembers_empty (b : Nat) : Remembers b (empty b : Box α) [] :=
  ⟨rfl, rfl, rfl⟩

/-- The next unread message is the head of the inbox. -/
theorem Remembers.head?_eq {b : Nat} {m : Box α} {log : List (Event α)}
    (mem : Remembers b m log) :
    m.inbox.head? = (readable log (epoch log))[(taken log (epoch log)).length]? := by
  rw [← mem.inbox]
  cases m.inbox <;> simp

theorem step_remembers {b : Nat} {m : Box α} {log : List (Event α)} (o : Op α)
    (mem : Remembers b m log) : Remembers b (step m o).1 (log ++ (step m o).2) := by
  obtain ⟨capacity, outbox, inbox⟩ := mem
  cases o with
  | put x =>
    by_cases full : m.Full
    · refine ⟨by simpa [step, full] using capacity, ?_, ?_⟩
      · simp [step, full, outbox, accepted_concat, acceptedBy, epoch_append, epoch]
      · simpa [step, full, taken_concat, takenBy, epoch_append, epoch, readable_concat] using inbox
    · refine ⟨by simpa [step, full] using capacity, ?_, ?_⟩
      · simp [step, full, outbox, accepted_concat, acceptedBy, epoch_append, epoch]
      · simpa [step, full, taken_concat, takenBy, epoch_append, epoch, readable_concat] using inbox
  | take =>
    refine ⟨capacity, ?_, ?_⟩
    · simp [step, outbox, accepted_concat, acceptedBy, epoch_append, epoch]
    · cases box : m.inbox with
      | nil =>
        simpa [step, box, taken_concat, takenBy, epoch_append, epoch, readable_concat] using inbox
      | cons x rest =>
        simpa [step, box, taken_concat, takenBy, epoch_append, epoch, readable_concat] using inbox
  | flip =>
    refine ⟨capacity, ?_, ?_⟩
    · have fresh : accepted log (epoch log + 1) = [] :=
        during_of_epoch_lt acceptedBy log (epoch log + 1) (by omega)
      simp [step, accepted_concat, epoch_append, epoch, fresh]
    · have fresh : taken log (epoch log + 1) = [] :=
        during_of_epoch_lt takenBy log (epoch log + 1) (by omega)
      simp [step, taken_concat, epoch_append, epoch, fresh, readable, accepted_concat,
        acceptedBy, outbox]

/-- Every step emits one event, and the mailbox's memory justifies it. -/
theorem step_justified {b : Nat} {m : Box α} {log : List (Event α)} (o : Op α)
    (mem : Remembers b m log) :
    ∃ e, (step m o).2 = [e] ∧ Justified b log e := by
  cases o with
  | put x =>
    have full_iff : m.Full ↔ 0 < b ∧ (accepted log (epoch log)).length = b := by
      rw [Box.Full, mem.capacity, mem.outbox]
    by_cases full : m.Full
    · exact ⟨.put x false, by simp [step, full], by simp [Justified, full_iff.mp full]⟩
    · exact ⟨.put x true, by simp [step, full], by simpa [Justified] using mt full_iff.mpr full⟩
  | take => exact ⟨_, rfl, mem.head?_eq⟩
  | flip => exact ⟨_, rfl, trivial⟩

/-- A justified event keeps the log one-cycle. -/
theorem OneCycle.concat {b : Nat} {log : List (Event α)} {e : Event α}
    (old : OneCycle b log) (new : Justified b log e) : OneCycle b (log ++ [e]) := by
  refine ⟨fun c => ?_, old.explained.concat new⟩
  rcases Nat.lt_trichotomy c (epoch log) with past | now | future
  · simpa [taken_concat, show c ≠ epoch log by omega, readable_concat log e c (by omega)]
      using old.delivery c
  · subst now
    rw [taken_concat, if_pos rfl, readable_concat log e _ (Nat.le_refl _)]
    match e, new with
    | .put _ _, _ => simpa [takenBy] using old.delivery (epoch log)
    | .flip, _ => simpa [takenBy] using old.delivery (epoch log)
    | .took none, _ => simpa [takenBy] using old.delivery (epoch log)
    | .took (some x), new =>
      -- the next unread message extends the prefix read so far by one
      obtain ⟨rest, split⟩ := old.delivery (epoch log)
      simp only [Justified, ← split] at new
      cases rest with
      | nil => simp at new
      | cons y rest =>
        have same : x = y := by simpa using new
        subst same
        exact ⟨rest, by rw [← split]; simp [takenBy]⟩
  · have none : taken (log ++ [e]) c = [] := by
      have before : taken log c = [] := during_of_epoch_lt takenBy log c future
      simp [taken_concat, before, show c ≠ epoch log by omega]
    rw [none]
    exact List.nil_prefix

/-- Every log of a mailbox of capacity `b`, from empty, is one-cycle. -/
theorem run_oneCycle (b : Nat) (ops : List (Op α)) : OneCycle b (run step (empty b) ops).2 := by
  have both := run_induction step (s := (empty b : Box α))
    (P := fun m _ log => Remembers b m log ∧ OneCycle b log)
    ⟨remembers_empty b, fun c => by cases c <;> simp [taken, during], explained_nil _⟩
    (fun m _ log o ⟨mem, old⟩ => by
      obtain ⟨e, emitted, new⟩ := step_justified o mem
      refine ⟨step_remembers o mem, ?_⟩
      rw [emitted]
      exact old.concat new)
    ops
  exact both.2

end Lib.Mailbox
