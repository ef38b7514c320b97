import Mathlib.Order.Basic

/-!
# The flow of octets through boom fetch

With a predictor that answers at once, what is fetched in a cycle moves through the
buffer together: it is new, then asked about, then answered, and then it leaves. The
stage is seen as the octets at each point, and what the engine has read ahead.
-/
namespace Sinuca3.Source

/-- The octets between two cycles. -/
structure BoomFlow where
  currentPenalty : Nat
  fetchClock : Nat
  /-- The request that the engine will find. -/
  request : Option Nat
  /-- Answers that wait for the boom fetch. -/
  waiting : Nat
  /-- Entries not sent yet. -/
  fresh : Nat
  /-- Entries whose queries the predictors will find. -/
  asked : Nat
  /-- Entries whose response waits, and those that left with theirs in the last cycle. -/
  answered : Nat
  left : Nat
  /-- The instruction that the engine has buffered. -/
  buffered : Nat

namespace BoomFlow

/-- The octets in the buffer. -/
def held (x : BoomFlow) : Nat := x.answered + x.asked + x.fresh

/-- What the engine does about a request: the answer is below it, and would not be with the
instruction that is then buffered. -/
structure Answers (request : Option Nat) (buffered waiting buffered' : Nat) : Prop where
  none : request = none → waiting = 0 ∧ buffered' = buffered
  below : ∀ r, request = some r → waiting = 0 ∨ waiting < r
  enough : ∀ r, request = some r → r ≤ waiting + buffered'
  full : ∀ r, request = some r → r ≤ buffered → waiting = 0 ∧ buffered' = buffered

/-- What a cycle does to the octets; `reaches` says whether the boom fetch goes on to fetch. -/
structure Cycle (size fetchInterval misspredictPenalty : Nat) (reaches : Bool)
    (x y : BoomFlow) : Prop where
  answers : Answers x.request x.buffered y.waiting y.buffered
  asked : y.asked = x.fresh
  answered : y.answered = x.asked
  left : y.left = x.answered
  request : y.request = none ∨
    x.fetchClock % fetchInterval = 0 ∧ y.fetchClock = 1 ∧ y.request = some (size - y.held)
  early : reaches = false → (3 < x.currentPenalty ∨ x.currentPenalty = 0) ∧
    y.request = none ∧ y.fresh = 0 ∧
    y.currentPenalty = if 0 < x.currentPenalty then x.currentPenalty - 1 else misspredictPenalty
  fetches : reaches = true → x.currentPenalty ≤ 3 ∧
    (x.currentPenalty = 0 → x.answered ≠ 0 ∨ x.asked ≠ 0) ∧ y.fresh = x.waiting ∧
    y.currentPenalty = x.currentPenalty - 1

/-- The octets that a cycle takes. -/
def taken (x : BoomFlow) (reaches : Bool) : Nat := if reaches then x.waiting else 0

/-- What stays in the buffer and what a cycle takes fit. -/
def Roomy (size : Nat) (reaches : Bool) (x : BoomFlow) : Prop :=
  x.asked + x.fresh + x.taken reaches < size

/-- The buffer is not full, and answers leave room for what was in it when they were asked
for. -/
structure Budget (size : Nat) (x : BoomFlow) : Prop where
  fits : x.held < size
  request : x.request = none ∨ x.request = some (size - x.held)
  waiting : x.waiting = 0 ∨ x.waiting + x.answered + x.asked + x.left < size

section Cycle

variable {size fetchInterval misspredictPenalty : Nat} {reaches : Bool} {x y : BoomFlow}

theorem Cycle.taken (cycle : Cycle size fetchInterval misspredictPenalty reaches x y) :
    y.fresh = x.taken reaches := by
  unfold BoomFlow.taken
  cases reaches with
  | false => exact (cycle.early rfl).2.2.1
  | true => exact (cycle.fetches rfl).2.2.1

theorem Budget.cycle (before : Budget size x) (room : Roomy size reaches x)
    (cycle : Cycle size fetchInterval misspredictPenalty reaches x y) : Budget size y := by
  have taken := cycle.taken
  obtain ⟨fits, request, _⟩ := before
  obtain ⟨answers, asked, answered, left, request', _, _⟩ := cycle
  unfold Roomy at room
  have held : y.held = x.asked + x.fresh + x.taken reaches := by
    unfold BoomFlow.held
    rw [asked, answered, taken]
  refine ⟨by omega, ?_, ?_⟩
  · rcases request' with none | ⟨_, _, some⟩
    · exact .inl none
    · exact .inr some
  · rcases request with none | some
    · exact .inl (answers.none none).1
    · rcases answers.below _ some with none | below
      · exact .inl none
      · unfold BoomFlow.held at below
        exact .inr (by omega)

/-- With an interval of at least two, a request is made only when the one before it was
answered and the answer read. -/
structure Spaced (x : BoomFlow) : Prop where
  clock : x.request = none ∨ x.fetchClock = 1
  single : x.request = none ∨ x.waiting = 0
  apart : x.waiting = 0 ∨ x.fresh = 0

theorem Spaced.cycle (interval : 1 < fetchInterval) (before : x.Spaced)
    (cycle : Cycle size fetchInterval misspredictPenalty reaches x y) : y.Spaced := by
  have taken := cycle.taken
  obtain ⟨clock, single, apart⟩ := before
  obtain ⟨answers, _, _, _, request, _, _⟩ := cycle
  have quiet : x.request = none → y.waiting = 0 := fun none => (answers.none none).1
  -- The cycle after a request makes none.
  have pause : x.fetchClock = 1 → y.request = none := by
    intro one
    rcases request with none | ⟨due, _⟩
    · exact none
    · rw [one, Nat.mod_eq_of_lt interval] at due
      omega
  have less : y.fresh ≤ x.waiting := by
    rw [taken]
    unfold BoomFlow.taken
    split <;> omega
  refine ⟨request.imp id fun made => made.2.1, ?_, ?_⟩
  · rcases clock with none | one
    · exact .inr (quiet none)
    · exact .inl (pause one)
  · rcases single with none | dry
    · exact .inl (quiet none)
    · exact .inr (by omega)

/-- With a penalty of at least four, where the octets are at each point of it: when it is
paid nothing is left that an answer could be for. -/
def Long (x : BoomFlow) : Prop :=
  x.currentPenalty = 0 ∧ x.asked = 0 ∧ x.answered = 0 ∨
  x.currentPenalty = 1 ∧ x.fresh = 0 ∧ x.asked = 0 ∨
  x.currentPenalty = 2 ∧ x.waiting = 0 ∧ x.fresh = 0 ∨
  x.currentPenalty = 3 ∧ x.request = none ∧ x.waiting = 0 ∨
  3 < x.currentPenalty ∧ x.request = none

theorem Long.cycle (penalty : 3 < misspredictPenalty) (before : x.Long)
    (cycle : Cycle size fetchInterval misspredictPenalty reaches x y) : y.Long := by
  obtain ⟨answers, asked, answered, _, _, early, fetches⟩ := cycle
  have quiet : x.request = none → y.waiting = 0 := fun none => (answers.none none).1
  cases reaches with
  | false =>
    obtain ⟨outside, none, _, paid⟩ := early rfl
    rcases before with ⟨zero, _⟩ | ⟨one, _⟩ | ⟨two, _⟩ | ⟨three, _⟩ | ⟨above, noRequest⟩
    · rw [if_neg (by omega)] at paid
      exact .inr (.inr (.inr (.inr ⟨by omega, none⟩)))
    · omega
    · omega
    · omega
    · rw [if_pos (by omega)] at paid
      have dry := quiet noRequest
      by_cases ends : y.currentPenalty = 3
      · exact .inr (.inr (.inr (.inl ⟨ends, none, dry⟩)))
      · exact .inr (.inr (.inr (.inr ⟨by omega, none⟩)))
  | true =>
    obtain ⟨inside, confirmed, fresh, paid⟩ := fetches rfl
    -- Each cycle of the penalty takes the pattern to the one before it.
    rcases before with ⟨zero, noAsked, silent⟩ | ⟨one, noFresh, noAsked⟩ | ⟨two, dry, noFresh⟩ |
      ⟨three, noRequest, dry⟩ | ⟨above, _⟩
    · rcases confirmed zero with some | some
      · exact absurd silent some
      · exact absurd noAsked some
    · exact .inl ⟨by omega, by omega, by omega⟩
    · exact .inr (.inl ⟨by omega, by omega, by omega⟩)
    · exact .inr (.inr (.inl ⟨by omega, quiet noRequest, by omega⟩))
    · omega

/-- With a penalty of three. After it answers find new entries, but not when all that was
asked about was new as they were asked for. -/
def Three (x : BoomFlow) : Prop :=
  x.currentPenalty = 0 ∧
    (x.fresh = 0 ∨ x.waiting = 0 ∨ x.asked = 0 ∨ x.left ≠ 0 ∨ x.answered ≠ 0) ∨
  x.currentPenalty = 1 ∧ x.fresh = 0 ∨
  x.currentPenalty = 2 ∧ x.waiting = 0 ∧ x.asked = 0 ∨
  x.currentPenalty = 3 ∧ x.request = none ∧ x.fresh = 0

theorem Three.cycle (penalty : misspredictPenalty = 3) (before : x.Three)
    (cycle : Cycle size fetchInterval misspredictPenalty reaches x y) : y.Three := by
  obtain ⟨answers, asked, answered, left, _, early, fetches⟩ := cycle
  have quiet : x.request = none → y.waiting = 0 := fun none => (answers.none none).1
  cases reaches with
  | false =>
    obtain ⟨outside, none, noFresh, paid⟩ := early rfl
    have zero : x.currentPenalty = 0 := by
      rcases before with ⟨zero, _⟩ | ⟨one, _⟩ | ⟨two, _⟩ | ⟨three, _⟩ <;> omega
    rw [if_neg (by omega)] at paid
    exact .inr (.inr (.inr ⟨by omega, none, noFresh⟩))
  | true =>
    obtain ⟨_, confirmed, fresh, paid⟩ := fetches rfl
    rcases before with ⟨zero, _⟩ | ⟨one, noFresh⟩ | ⟨two, dry, _⟩ | ⟨three, noRequest, noFresh⟩
    · have some := confirmed zero
      exact .inl ⟨by omega, by omega⟩
    · exact .inl ⟨by omega, by omega⟩
    · exact .inr (.inl ⟨by omega, by omega⟩)
    · exact .inr (.inr (.inl ⟨by omega, quiet noRequest, by omega⟩))

/-- With a penalty of one or two, all octets are at one point, and with what the engine has
buffered they fill the buffer: nothing is sent until they have left. -/
structure Alone (size misspredictPenalty : Nat) (x : BoomFlow) : Prop where
  alone : x.held = 0 ∨ x.waiting = 0 ∧ (x.fresh = 0 ∧ x.asked = 0 ∨
    x.fresh = 0 ∧ x.answered = 0 ∨ x.asked = 0 ∧ x.answered = 0)
  full : x.held + x.waiting = 0 ∨ size ≤ x.held + x.waiting + x.buffered
  paying : x.currentPenalty = 0 ∨
    x.currentPenalty = misspredictPenalty ∧ x.request = none ∨
    x.currentPenalty < misspredictPenalty ∧ x.waiting = 0

theorem Alone.cycle (penalty : misspredictPenalty < 3) (budget : Budget size x)
    (before : x.Alone size misspredictPenalty)
    (cycle : Cycle size fetchInterval misspredictPenalty reaches x y) :
    y.Alone size misspredictPenalty := by
  have taken := cycle.taken
  obtain ⟨alone, full, paying⟩ := before
  obtain ⟨answers, asked, answered, _, _, early, fetches⟩ := cycle
  unfold BoomFlow.taken at taken
  -- What waits is taken only where there was no request.
  have takes : y.fresh = 0 ∨ y.fresh = x.waiting ∧ x.request = none := by
    cases reaches with
    | false => exact .inl taken
    | true =>
      obtain ⟨_, confirmed, _, _⟩ := fetches rfl
      rw [if_pos rfl] at taken
      unfold BoomFlow.held at alone
      rcases paying with zero | ⟨_, none⟩ | ⟨_, dry⟩
      · have some := confirmed zero
        exact .inl (by omega)
      · exact .inr ⟨taken, none⟩
      · exact .inl (by omega)
  have moves : (y.waiting = 0 ∧ y.buffered = x.buffered) ∨
      (y.held = 0 ∧ size ≤ y.waiting + y.buffered) := by
    rcases budget.request with none | some
    · exact .inl (answers.none none)
    · by_cases empty : x.held = 0
      · right
        have enough := answers.enough _ some
        have nothing : y.fresh = 0 := by
          rcases takes with nothing | ⟨_, none⟩
          · exact nothing
          · rw [some] at none
            cases none
        unfold BoomFlow.held at empty enough ⊢
        exact ⟨by omega, by omega⟩
      · exact .inl (answers.full _ some (by omega))
  have few : y.fresh ≤ x.waiting := by omega
  unfold BoomFlow.held at alone full moves
  refine ⟨?_, ?_, ?_⟩
  · unfold BoomFlow.held
    omega
  · unfold BoomFlow.held
    omega
  · cases reaches with
    | false =>
      obtain ⟨outside, none, _, paid⟩ := early rfl
      rw [if_neg (by omega)] at paid
      exact .inr (.inl ⟨paid, none⟩)
    | true =>
      obtain ⟨_, _, _, paid⟩ := fetches rfl
      rcases paying with zero | ⟨starts, none⟩ | ⟨below, _⟩
      · exact .inl (by omega)
      · by_cases ends : y.currentPenalty = 0
        · exact .inl ends
        · exact .inr (.inr ⟨by omega, (answers.none none).1⟩)
      · exact .inl (by omega)

end Cycle

section Room

variable {size fetchInterval misspredictPenalty : Nat} {reaches : Bool} {x y : BoomFlow}

/-- What keeps the octets in their place, for each configuration but those with a request
every cycle, a penalty of three and an array of four entries or more. -/
structure Inv (size fetchInterval misspredictPenalty : Nat) (x : BoomFlow) : Prop where
  budget : Budget size x
  spaced : 1 < fetchInterval → x.Spaced
  long : 3 < misspredictPenalty → x.Long
  three : misspredictPenalty = 3 → x.Three
  alone : misspredictPenalty < 3 → x.Alone size misspredictPenalty

/-- The stage at rest. -/
theorem Inv.start (positive : 0 < size) (penalty : x.currentPenalty = 0)
    (empty : x.held = 0) (dry : x.waiting = 0) (idle : x.request = none) :
    Inv size fetchInterval misspredictPenalty x := by
  unfold BoomFlow.held at empty
  refine ⟨⟨?_, .inl idle, .inl dry⟩, fun _ => ⟨.inl idle, .inl idle, .inl dry⟩, fun _ => ?_,
    fun _ => ?_, fun _ => ⟨?_, ?_, .inl penalty⟩⟩
  · unfold BoomFlow.held
    omega
  · exact .inl ⟨penalty, by omega, by omega⟩
  · exact .inl ⟨penalty, .inr (.inl dry)⟩
  · unfold BoomFlow.held
    omega
  · unfold BoomFlow.held
    omega

theorem Inv.cycle (before : Inv size fetchInterval misspredictPenalty x)
    (room : Roomy size reaches x)
    (cycle : Cycle size fetchInterval misspredictPenalty reaches x y) :
    Inv size fetchInterval misspredictPenalty y where
  budget := before.budget.cycle room cycle
  spaced interval := (before.spaced interval).cycle interval cycle
  long penalty := (before.long penalty).cycle penalty cycle
  three penalty := (before.three penalty).cycle penalty cycle
  alone penalty := (before.alone penalty).cycle penalty before.budget cycle

/-- Where nothing waits, or nothing is new, there is room. -/
theorem Budget.roomy (budget : Budget size x)
    (apart : reaches = true → x.waiting = 0 ∨ x.fresh = 0) : Roomy size reaches x := by
  obtain ⟨fits, _, waiting⟩ := budget
  unfold BoomFlow.held at fits
  unfold Roomy BoomFlow.taken
  cases reaches with
  | false =>
    rw [if_neg Bool.false_ne_true]
    omega
  | true =>
    have apart := apart rfl
    rw [if_pos rfl]
    omega

/-- Every cycle has room, except where requests are made every cycle, the penalty is three
and the array has four entries or more. -/
theorem Inv.roomy (before : Inv size fetchInterval misspredictPenalty x)
    (fetches : reaches = true → x.currentPenalty ≤ 3 ∧
      (x.currentPenalty = 0 → x.answered ≠ 0 ∨ x.asked ≠ 0))
    (safe : 1 < fetchInterval ∨ misspredictPenalty ≠ 3 ∨ size < 4) : Roomy size reaches x := by
  by_cases apart : reaches = true → x.waiting = 0 ∨ x.fresh = 0
  · exact before.budget.roomy apart
  obtain ⟨fetching, together⟩ := Classical.not_imp.mp apart
  obtain ⟨inside, confirmed⟩ := fetches fetching
  rcases Nat.lt_trichotomy misspredictPenalty 3 with short | three | long
  · have alone := (before.alone short).alone
    unfold BoomFlow.held at alone
    omega
  · by_cases interval : 1 < fetchInterval
    · exact absurd (before.spaced interval).apart together
    · -- An array of less than four entries has no room for what would be too much.
      obtain ⟨fits, _, waiting⟩ := before.budget
      unfold BoomFlow.held at fits
      unfold Roomy BoomFlow.taken
      rw [if_pos fetching]
      rcases before.three three with ⟨zero, rest⟩ | ⟨_, dry⟩ | ⟨_, dry, _⟩ | ⟨_, _, dry⟩
      · have some := confirmed zero
        omega
      · omega
      · omega
      · omega
  · rcases before.long long with ⟨zero, none, silent⟩ | ⟨_, dry, _⟩ | ⟨_, dry, _⟩ |
      ⟨_, _, dry⟩ | ⟨above, _⟩
    · have some := confirmed zero
      omega
    · omega
    · omega
    · omega
    · omega

end Room

end BoomFlow

end Sinuca3.Source
