import Mathlib.Order.Basic

/-!
# The flow of instructions through the fetch stage

The stage seen as counts: how many instructions wait for the fetcher, are new in its
buffer, or are on the way to or from the predictor. Two answers can be in the stage
at once, and the later one was asked for without counting the earlier. What keeps them
apart is the alignment of requests and penalties, which the invariants below describe.
-/
namespace Sinuca3.Source

/-- The counts between two cycles. -/
structure Flow where
  currentPenalty : Nat
  fetchClock : Nat
  /-- Requests that the engine will find. -/
  requests : Nat
  /-- Answers that wait for the fetcher. -/
  waiting : Nat
  /-- Entries not sent to the predictor yet. -/
  fresh : Nat
  /-- Queries that the predictor will find. -/
  asked : Nat
  /-- Responses of the predictor that wait for the fetcher. -/
  answered : Nat

namespace Flow

/-- What a cycle does to the counts; `reaches` says whether the fetcher goes on to
fetch, and `prompt` whether the predictor answers in the cycle it is asked. -/
structure Cycle (prompt : Prop) (fetchInterval misspredictPenalty : Nat) (reaches : Bool)
    (x y : Flow) : Prop where
  waiting : x.requests = 0 → y.waiting = 0
  asked : y.asked = x.fresh
  answered : prompt → y.answered = x.asked
  requests : y.requests = 0 ∨ x.fetchClock % fetchInterval = 0 ∧ y.fetchClock = 1
  early : reaches = false → (3 < x.currentPenalty ∨ x.currentPenalty = 0) ∧
    y.requests = 0 ∧ y.fresh = 0 ∧
    y.currentPenalty = if 0 < x.currentPenalty then x.currentPenalty - 1 else misspredictPenalty
  fetches : reaches = true → x.currentPenalty ≤ 3 ∧
    (x.currentPenalty = 0 → x.answered ≠ 0) ∧ y.fresh = x.waiting ∧
    y.currentPenalty = x.currentPenalty - 1

/-- With an interval of at least two, a request is made only when the one before it was
answered and the answer read. -/
structure Spaced (x : Flow) : Prop where
  clock : x.requests = 0 ∨ x.fetchClock = 1
  single : x.requests = 0 ∨ x.waiting = 0
  apart : x.waiting = 0 ∨ x.fresh = 0

theorem Spaced.cycle {prompt : Prop} {fetchInterval misspredictPenalty : Nat} {reaches : Bool}
    {x y : Flow} (interval : 1 < fetchInterval) (before : x.Spaced)
    (cycle : Cycle prompt fetchInterval misspredictPenalty reaches x y) : y.Spaced := by
  obtain ⟨clock, single, apart⟩ := before
  obtain ⟨waiting, _, _, requests, early, fetches⟩ := cycle
  -- The cycle after a request makes none.
  have pause : x.fetchClock = 1 → y.requests = 0 := by
    intro one
    rcases requests with none | ⟨due, _⟩
    · exact none
    · rw [one, Nat.mod_eq_of_lt interval] at due
      omega
  cases reaches with
  | false =>
    obtain ⟨_, none, new, _⟩ := early rfl
    constructor <;> omega
  | true =>
    obtain ⟨_, _, new, _⟩ := fetches rfl
    constructor <;> omega

/-- With a request every cycle, where the instructions are at each point of a penalty.
There are four patterns, as the last three cycles of a penalty fetch. -/
def Phase : Nat → Flow → Prop
  | 1, x =>
    x.currentPenalty = 0 ∧ (x.waiting = 0 ∧ x.asked = 0 ∨ x.fresh = 0 ∧ x.answered = 0) ∨
    x.currentPenalty = 1 ∧ x.requests = 0 ∧ x.fresh = 0
  | 2, x =>
    x.currentPenalty = 0 ∧ x.fresh = 0 ∧ x.answered = 0 ∨
    x.currentPenalty = 1 ∧ x.waiting = 0 ∧ x.asked = 0 ∨
    x.currentPenalty = 2 ∧ x.requests = 0 ∧ x.fresh = 0
  | 3, x =>
    x.currentPenalty = 0 ∧ (x.asked = 0 ∨ x.answered = 0) ∨
    x.currentPenalty = 1 ∧ x.fresh = 0 ∧ x.answered = 0 ∨
    x.currentPenalty = 2 ∧ x.waiting = 0 ∧ x.asked = 0 ∨
    x.currentPenalty = 3 ∧ x.requests = 0 ∧ x.fresh = 0
  | _, x =>
    x.currentPenalty = 0 ∧ x.asked = 0 ∧ x.answered = 0 ∨
    x.currentPenalty = 1 ∧ x.fresh = 0 ∧ x.asked = 0 ∨
    x.currentPenalty = 2 ∧ x.waiting = 0 ∧ x.fresh = 0 ∨
    x.currentPenalty = 3 ∧ x.requests = 0 ∧ x.waiting = 0 ∨
    3 < x.currentPenalty ∧ x.requests = 0

theorem Phase.cycle {prompt : Prop} {fetchInterval misspredictPenalty : Nat} {reaches : Bool}
    {x y : Flow} (answers : prompt) (positive : 0 < misspredictPenalty)
    (before : Phase misspredictPenalty x)
    (cycle : Cycle prompt fetchInterval misspredictPenalty reaches x y) :
    Phase misspredictPenalty y := by
  obtain ⟨waiting, asked, answered, _, early, fetches⟩ := cycle
  have answered := answered answers
  cases reaches with
  | false =>
    obtain ⟨outside, none, new, penalty⟩ := early rfl
    match misspredictPenalty, before with
    | 1, before | 2, before | 3, before =>
      simp only [Phase] at before ⊢
      split at penalty <;> omega
    | n + 4, before =>
      simp only [Phase] at before ⊢
      have quiet : 3 < x.currentPenalty → y.waiting = 0 := fun above => waiting (by omega)
      have ends : 3 < y.currentPenalty ∨ y.currentPenalty = 3 ∧ y.waiting = 0 := by
        clear before
        split at penalty <;> omega
      rcases ends with above | ⟨three, dry⟩
      · exact .inr (.inr (.inr (.inr ⟨above, none⟩)))
      · exact .inr (.inr (.inr (.inl ⟨three, none, dry⟩)))
  | true =>
    obtain ⟨inside, confirmed, new, penalty⟩ := fetches rfl
    match misspredictPenalty, before with
    | 1, before | 2, before =>
      simp only [Phase] at before ⊢
      omega
    | 3, before =>
      simp only [Phase] at before ⊢
      rcases before with ⟨zero, _⟩ | ⟨one, noFresh, _⟩ | ⟨two, dry, _⟩ | ⟨three, noRequests, _⟩
      · exact .inl ⟨by omega, by omega⟩
      · exact .inl ⟨by omega, by omega⟩
      · exact .inr (.inl ⟨by omega, by omega, by omega⟩)
      · exact .inr (.inr (.inl ⟨by omega, waiting noRequests, by omega⟩))
    | n + 4, before =>
      simp only [Phase] at before ⊢
      -- Each cycle of the penalty takes the pattern to the one before it.
      rcases before with ⟨zero, _, silent⟩ | ⟨one, noFresh, noAsked⟩ | ⟨two, dry, noFresh⟩ |
        ⟨three, noRequests, dry⟩ | ⟨above, _⟩
      · exact absurd silent (confirmed zero)
      · exact .inl ⟨by omega, by omega, by omega⟩
      · exact .inr (.inl ⟨by omega, by omega, by omega⟩)
      · exact .inr (.inr (.inl ⟨by omega, waiting noRequests, by omega⟩))
      · omega

/-- Where a cycle fetches, what waits and what is new are apart; with a penalty of
three there is one more possibility. -/
theorem Phase.apart {misspredictPenalty : Nat} {x : Flow} (positive : 0 < misspredictPenalty)
    (phase : Phase misspredictPenalty x) (inside : x.currentPenalty ≤ 3)
    (confirmed : x.currentPenalty = 0 → x.answered ≠ 0) :
    x.waiting = 0 ∨ x.fresh = 0 ∨ misspredictPenalty = 3 ∧ x.asked = 0 ∧ x.answered ≠ 0 := by
  match misspredictPenalty, phase with
  | 1, phase | 2, phase | 3, phase | n + 4, phase =>
    simp only [Phase] at phase
    omega

end Flow

end Sinuca3.Source
