import Sinuca3.Source.StdComponents.BoomFetch

/-!
# The control of boom fetch

Its parameters, the count of mispredictions, the penalty and the clock of its requests:
only the end of `Clock` changes them, in one of three ways.
-/
namespace Sinuca3.Source

/-- All of a boom fetch but its buffer, its own components and the count of what was
fetched. -/
structure BoomFetchControl where
  fetchSize : Nat
  fetchInterval : Nat
  fetchClock : Nat
  misspredictPenalty : Nat
  misspredictions : Nat
  currentPenalty : Nat
  flagsToCheck : BoomFetchBufferEntryFlags

namespace BoomFetch

def control (f : BoomFetch) : BoomFetchControl where
  fetchSize := f.fetchSize
  fetchInterval := f.fetchInterval
  fetchClock := f.fetchClock
  misspredictPenalty := f.misspredictPenalty
  misspredictions := f.misspredictions
  currentPenalty := f.currentPenalty
  flagsToCheck := f.flagsToCheck

/-- The fields that a control determines. -/
theorem fields_of_control {f : BoomFetch} {c : BoomFetchControl} (same : f.control = c) :
    f.fetchSize = c.fetchSize ∧ f.fetchInterval = c.fetchInterval ∧
      f.fetchClock = c.fetchClock ∧ f.misspredictPenalty = c.misspredictPenalty ∧
      f.misspredictions = c.misspredictions ∧ f.currentPenalty = c.currentPenalty ∧
      f.flagsToCheck = c.flagsToCheck := by
  subst same
  exact ⟨rfl, rfl, rfl, rfl, rfl, rfl, rfl⟩

theorem fields_of_same_control {f g : BoomFetch} (same : f.control = g.control) :
    f.fetchSize = g.fetchSize ∧ f.fetchInterval = g.fetchInterval ∧
      f.fetchClock = g.fetchClock ∧ f.misspredictPenalty = g.misspredictPenalty ∧
      f.misspredictions = g.misspredictions ∧ f.currentPenalty = g.currentPenalty ∧
      f.flagsToCheck = g.flagsToCheck := fields_of_control same

section Buffered

@[simp] theorem setFlags_control (f : BoomFetch) (i : Nat)
    (set : BoomFetchBufferEntryFlags → BoomFetchBufferEntryFlags) :
    (f.setFlags i set).control = f.control := rfl

theorem sentToRas_control (f : BoomFetch) (i : Nat) :
    (f.sentToRas i).2.1.control = f.control := by
  unfold sentToRas
  dsimp only
  split <;> rfl

theorem sentToBTB_control (f : BoomFetch) (i : Nat) :
    (f.sentToBTB i).2.control = f.control := by
  unfold sentToBTB
  dsimp only
  split <;> rfl

theorem sendEntry_control (f : BoomFetch) (ports : BoomFetchPorts) (i : Nat) :
    (f.sendEntry ports i).1.control = f.control := by
  have mark : ∀ (flag : Bool) (g : BoomFetch) (set),
      (if flag then g.setFlags i set else g).control = g.control := by
    intro flag g set
    cases flag <;> rfl
  unfold sendEntry
  dsimp only
  rw [mark, sentToBTB_control, mark, sentToRas_control, setFlags_control]

theorem sendFrom_control (n i : Nat) (f : BoomFetch) (ports : BoomFetchPorts) :
    (sendFrom n i f ports).1.control = f.control := by
  induction n generalizing i f ports with
  | zero => rfl
  | succ n ih =>
    rw [sendFrom]
    split
    · exact (ih _ _ _).trans (sendEntry_control f ports i)
    · rfl

theorem clockSendBuffered_control (f : BoomFetch) (ports : BoomFetchPorts) :
    (f.clockSendBuffered ports).1.control = f.control := sendFrom_control _ _ f ports

theorem checkPredictor_control (responses : List PredictorPacket) (i : Nat) (f : BoomFetch) :
    (checkPredictor responses i f).2.control = f.control := by
  induction responses generalizing i f with
  | nil => rfl
  | cons response responses ih => exact ih (i + 1) (f.setFlags i .setPredictorCheck)

theorem checkBTB_control (responses : List BTBPacket) (f : BoomFetch) :
    (checkBTB responses f).2.control = f.control := by
  induction responses generalizing f with
  | nil => rfl
  | cons response responses ih =>
    rw [checkBTB]
    dsimp only
    rw [ih]
    rfl

theorem clockCheckPredictor_control (f : BoomFetch) (ports : BoomFetchPorts) :
    (f.clockCheckPredictor ports).2.1.control = f.control := checkPredictor_control _ _ f

theorem clockCheckRas_control (f : BoomFetch) : f.clockCheckRas.2.1.control = f.control := rfl

theorem clockCheckBTB_control (f : BoomFetch) : f.clockCheckBTB.2.control = f.control := by
  rw [clockCheckBTB]
  exact checkBTB_control _ f.clockedBTB.2

theorem clockUnbuffer_control (f : BoomFetch) : f.clockUnbuffer.control = f.control := rfl

/-- The first five calls leave it alone. -/
theorem clockBuffered_control (f : BoomFetch) (ports : BoomFetchPorts) :
    (f.clockBuffered ports).2.1.control = f.control := by
  unfold clockBuffered
  dsimp only
  rw [clockUnbuffer_control, clockCheckBTB_control, clockCheckRas_control,
    clockCheckPredictor_control, clockSendBuffered_control]

theorem receive_control (responses : List InstructionPacket) (f : BoomFetch) :
    (receive responses f).1.control = f.control := by
  induction responses generalizing f with
  | nil => rfl
  | cons response responses ih => exact ih _

theorem clockFetchAndRequest_control (f : BoomFetch) (ports : BoomFetchPorts) :
    (f.clockFetchAndRequest ports).1.control = { f.control with
      fetchClock := if f.fetchClock % f.fetchInterval = 0 then 1 else f.fetchClock + 1 } := by
  have same := receive_control ports.fetch.drainResponses.1 f
  obtain ⟨_, interval, clock, _⟩ := fields_of_same_control same
  unfold clockFetchAndRequest clockFetch
  dsimp only
  rw [← same]
  generalize receive ports.fetch.drainResponses.1 f = received at interval clock ⊢
  rw [← interval, ← clock]
  split <;> rfl

end Buffered

section Clock

variable (f : BoomFetch) (ports : BoomFetchPorts)

/-- `Clock` returns before it fetches. -/
def returnsEarly : Bool :=
  3 < f.currentPenalty || (f.currentPenalty = 0 && (f.clockBuffered ports).1)

variable {f ports} in
theorem returnsEarly_iff : f.returnsEarly ports = true ↔
    3 < f.currentPenalty ∨ f.currentPenalty = 0 ∧ (f.clockBuffered ports).1 = true := by
  unfold returnsEarly
  rw [Bool.or_eq_true, decide_eq_true_eq, Bool.and_eq_true, decide_eq_true_eq]

variable {f ports} in
theorem reaches_iff : f.returnsEarly ports = false ↔
    f.currentPenalty ≤ 3 ∧ (f.currentPenalty = 0 → (f.clockBuffered ports).1 = false) := by
  rw [← Bool.not_eq_true, returnsEarly_iff, not_or, not_and, Bool.not_eq_true, Nat.not_lt]

/-- A clock in a penalty but for its last three cycles only pays for it. -/
theorem clock_of_paying (paying : 3 < f.currentPenalty) :
    f.clock ports = ({ (f.clockBuffered ports).2.1 with currentPenalty := f.currentPenalty - 1 },
      (f.clockBuffered ports).2.2) := by
  obtain ⟨_, _, _, _, _, penalty, _⟩ := fields_of_same_control (f.clockBuffered_control ports)
  unfold clock
  generalize f.clockBuffered ports = buffered at penalty ⊢
  dsimp only
  rw [penalty, if_pos (by omega), if_pos (by omega)]

/-- A clock outside of a penalty that takes a prediction for wrong starts one. -/
theorem clock_of_missed (outside : f.currentPenalty = 0)
    (missed : (f.clockBuffered ports).1 = true) :
    f.clock ports = ({ (f.clockBuffered ports).2.1 with
        misspredictions := f.misspredictions + 1
        currentPenalty := f.misspredictPenalty
        fetchClock := 0 }, (f.clockBuffered ports).2.2) := by
  obtain ⟨_, _, _, length, count, penalty, _⟩ :=
    fields_of_same_control (f.clockBuffered_control ports)
  unfold clock
  generalize f.clockBuffered ports = buffered at length count penalty missed ⊢
  dsimp only
  rw [penalty, count, length, if_neg (by omega), if_pos missed]

/-- A clock that returns early only changes the counters. -/
theorem clock_of_early (early : f.returnsEarly ports = true) :
    ∃ count penalty clock, f.clock ports = ({ (f.clockBuffered ports).2.1 with
          misspredictions := count
          currentPenalty := penalty
          fetchClock := clock }, (f.clockBuffered ports).2.2) ∧
      penalty = (if 0 < f.currentPenalty then f.currentPenalty - 1 else f.misspredictPenalty) ∧
      clock = (if 0 < f.currentPenalty then f.fetchClock else 0) := by
  rcases returnsEarly_iff.mp early with paying | ⟨outside, missed⟩
  · obtain ⟨_, _, clock, _, _, _, _⟩ := fields_of_same_control (f.clockBuffered_control ports)
    refine ⟨(f.clockBuffered ports).2.1.misspredictions, f.currentPenalty - 1,
      (f.clockBuffered ports).2.1.fetchClock, f.clock_of_paying ports paying, ?_, ?_⟩
    · rw [if_pos (by omega)]
    · rw [clock, if_pos (by omega)]
  · refine ⟨f.misspredictions + 1, f.misspredictPenalty, 0,
      f.clock_of_missed ports outside missed, ?_, ?_⟩
    · rw [if_neg (by omega)]
    · rw [if_neg (by omega)]

/-- Any other clock goes on to fetch. -/
theorem clock_of_fetch (reaches : f.returnsEarly ports = false) :
    ∃ paid : BoomFetch,
      paid = { (f.clockBuffered ports).2.1 with currentPenalty := f.currentPenalty - 1 } ∧
      f.clock ports = ((paid.clockFetchAndRequest (f.clockBuffered ports).2.2.1).1,
        (paid.clockFetchAndRequest (f.clockBuffered ports).2.2.1).2.1,
        (f.clockBuffered ports).2.2.2 ++
          (paid.clockFetchAndRequest (f.clockBuffered ports).2.2.1).2.2) := by
  obtain ⟨_, _, _, _, _, penalty, _⟩ := fields_of_same_control (f.clockBuffered_control ports)
  refine ⟨_, rfl, ?_⟩
  obtain ⟨inside, confirmed⟩ := reaches_iff.mp reaches
  unfold clock
  generalize f.clockBuffered ports = buffered at penalty confirmed ⊢
  dsimp only
  rw [penalty]
  by_cases paying : 0 < f.currentPenalty
  · rw [if_pos paying, if_neg (by omega)]
  · have right := confirmed (Nat.eq_zero_of_not_pos paying)
    have none : f.currentPenalty - 1 = buffered.2.1.currentPenalty := by omega
    rw [if_neg paying, right, if_neg Bool.false_ne_true, none]

/-- The parameters stay, the penalty is paid or starts, and the clock of the requests runs
where the clock goes on to fetch. -/
theorem clock_control : ∃ count, (f.clock ports).1.control = { f.control with
    misspredictions := count
    currentPenalty :=
      if f.returnsEarly ports = true ∧ f.currentPenalty = 0 then f.misspredictPenalty
      else f.currentPenalty - 1
    fetchClock :=
      if f.returnsEarly ports = true then if f.currentPenalty = 0 then 0 else f.fetchClock
      else if f.fetchClock % f.fetchInterval = 0 then 1 else f.fetchClock + 1 } := by
  have same := f.clockBuffered_control ports
  cases early : f.returnsEarly ports with
  | true =>
    obtain ⟨count, penalty, clock, clocked, paid, ticked⟩ := f.clock_of_early ports early
    refine ⟨count, ?_⟩
    rw [clocked]
    have control : BoomFetch.control { (f.clockBuffered ports).2.1 with
        misspredictions := count
        currentPenalty := penalty
        fetchClock := clock } = { (f.clockBuffered ports).2.1.control with
          misspredictions := count
          currentPenalty := penalty
          fetchClock := clock } := rfl
    rw [control, same, paid, ticked]
    by_cases outside : f.currentPenalty = 0
    · simp [outside]
    · have paying : 0 < f.currentPenalty := by omega
      simp [outside, paying]
  | false =>
    obtain ⟨paid, result, clocked⟩ := f.clock_of_fetch ports early
    have control : paid.control = { f.control with currentPenalty := f.currentPenalty - 1 } := by
      rw [result, ← same]
      rfl
    obtain ⟨_, interval, clock, _⟩ := fields_of_control control
    change paid.fetchInterval = f.fetchInterval at interval
    change paid.fetchClock = f.fetchClock at clock
    refine ⟨f.misspredictions, ?_⟩
    rw [clocked]
    dsimp only
    rw [clockFetchAndRequest_control, control, interval, clock]
    simp only [Bool.false_eq_true, false_and, if_false]
    rfl

end Clock

end BoomFetch

end Sinuca3.Source
