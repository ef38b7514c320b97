import Sinuca3.Guarantees.CacheRuns
import Sinuca3.Lib.Recency

/-!
# First in, first out

The cache fills the empty ways of a set in order and the round-robin policy evicts in
order, each with a place of its own to go on from. Both are the number of writes to the
set, modulo the number of ways.
-/
namespace Sinuca3.Guarantees
open Sinuca3.Source Lib

variable {ValueType : Type}

/-- The ways of a set that were written, in order. -/
def fillsOf (set : Nat) (log : List CacheAccess) : List Nat :=
  (log.filter fun a => a.fill && a.set == set).map (·.way)

theorem fillsOf_concat (set : Nat) (log : List CacheAccess) (a : CacheAccess) :
    fillsOf set (log ++ [a]) =
      fillsOf set log ++ if a.fill = true ∧ a.set = set then [a.way] else [] := by
  by_cases here : a.fill = true ∧ a.set = set <;> simp [fillsOf, here]

/-- A read writes no way. -/
theorem fillsOf_read (c : CacheMemory ValueType) (addr : BitVec 64) (set : Nat)
    (log : List CacheAccess) :
    fillsOf set (log ++ (accessStep c (.read addr)).2) = fillsOf set log := by
  simp only [accessStep]
  rcases c.getEntry addr with _ | cell
  · simp
  · rw [Option.toList_some, List.map_singleton, fillsOf_concat]
    simp

/-- A line is valid once its way is among those written. -/
theorem mem_fillsOf (set way : Nat) (log : List CacheAccess) :
    way ∈ fillsOf set log ↔ (filledFor set way log).isSome := by
  unfold fillsOf filledFor
  rw [Option.isSome_map, List.getLast?_isSome, ne_eq, List.filter_eq_nil_iff]
  simp only [List.mem_map, List.mem_filter, not_forall, Bool.and_eq_true, beq_iff_eq, not_not]
  constructor
  · rintro ⟨a, ⟨member, kind⟩, rfl⟩
    exact ⟨a, member, kind, rfl⟩
  · rintro ⟨a, member, kind, rfl⟩
    exact ⟨a, ⟨member, kind⟩, rfl⟩

/-- Where the pointer of a set is after so many writes to it. -/
def pointerAfter (numWays written : Nat) : Nat :=
  if written < numWays then 0 else written % numWays

/-- Each set was filled in turn, and its pointer goes on from there. -/
def InTurn (c : CacheMemory ValueType) (log : List CacheAccess) : Prop :=
  ∃ rrIndex, c.policy.policy = .roundRobin rrIndex ∧
    ∀ set, fillsOf set log = Recency.inTurn c.numWays (fillsOf set log).length ∧
      rrIndex set = pointerAfter c.numWays (fillsOf set log).length

variable {g : CacheGeometry} {c : CacheMemory ValueType} {log : List CacheAccess}

/-- The first of the ways that none below a bound satisfies and the bound does. -/
theorem find?_range_of_first {p : Nat → Bool} {n k : Nat} (inside : k < n) (here : p k = true)
    (before : ∀ j < k, p j = false) : (List.range n).find? p = some k := by
  rw [List.find?_range_eq_some]
  exact ⟨here, List.mem_range.mpr inside, fun j early => by simp [before j early]⟩

/-- A write goes to the way whose turn it is. -/
theorem InTurn.victim (recorded : Recorded g c log) (turns : InTurn c log) (addr : BitVec 64) :
    let set := (c.getIndex addr).toNat
    let written := (fillsOf set log).length
    (c.victim addr).1.2 = written % c.numWays ∧
      ∃ rrIndex, (c.victim addr).2.policy = .roundRobin rrIndex ∧ ∀ other,
        rrIndex other = if other = set ∧ c.numWays ≤ written then (written + 1) % c.numWays
          else pointerAfter c.numWays (fillsOf other log).length := by
  intro set written
  obtain ⟨rrIndex, kind, ages⟩ := turns
  have order : fillsOf set log = Recency.inTurn c.numWays written := (ages set).1
  have valid : ∀ way < c.numWays, (c.entries set way).isValid = decide (way < written) := by
    intro way inside
    have member := mem_fillsOf set way log
    rw [order, Recency.mem_inTurn inside] at member
    rw [recorded.lines]
    rcases filled : filledFor set way log with _ | b <;> rw [filled] at member
    · simpa [lineFor] using member
    · simpa [lineFor] using member
  unfold CacheMemory.victim CacheMemory.findEmptyEntry
  rcases Nat.lt_or_ge written c.numWays with room | full
  · have first : (List.range c.numWays).find? (fun way => !(c.entries set way).isValid) =
        some written := by
      apply find?_range_of_first room
      · simp [valid written room]
      · intro j early
        simp [valid j (by omega), early]
    have found : (Option.map (fun way => (set, way)) ((List.range c.numWays).find?
        fun way => !(c.entries set way).isValid)) = some (set, written) := by
      rw [first]
      rfl
    dsimp only
    rw [found]
    refine ⟨(Nat.mod_eq_of_lt room).symm, rrIndex, kind, fun other => ?_⟩
    rw [(ages other).2, if_neg fun both => absurd both.2 (Nat.not_le.mpr room)]
  · have none : (List.range c.numWays).find? (fun way => !(c.entries set way).isValid) = none := by
      rw [List.find?_eq_none]
      intro way member
      have inside := List.mem_range.mp member
      simp only [valid way inside, Bool.not_eq_true, Bool.not_eq_false', decide_eq_true_eq]
      omega
    have missing : (Option.map (fun way => (set, way)) ((List.range c.numWays).find?
        fun way => !(c.entries set way).isValid)) = Option.none := by
      rw [none]
      rfl
    have pointer : rrIndex set = written % c.numWays := by
      rw [(ages set).2, pointerAfter, if_neg (Nat.not_lt.mpr full)]
    dsimp only
    rw [missing]
    unfold ReplacementPolicy.selectVictim
    rw [kind]
    refine ⟨pointer, _, rfl, fun other => ?_⟩
    by_cases same : other = set
    · subst same
      rw [Function.update_self, if_pos ⟨rfl, full⟩, recorded.wellFormed.samePolicy, pointer,
        Nat.mod_add_mod]
    · rw [Function.update_of_ne same, (ages other).2, if_neg fun both => same both.1]

theorem InTurn.step (recorded : Recorded g c log) (turns : InTurn c log)
    (op : CacheOp ValueType) : InTurn (accessStep c op).1 (log ++ (accessStep c op).2) := by
  cases op with
  | read addr =>
    obtain ⟨rrIndex, kind, ages⟩ := turns
    have geometry := (read_frame c addr).1
    refine ⟨rrIndex, ?_, fun set => ?_⟩
    · simp only [accessStep, CacheMemory.read]
      split
      · simp [ReplacementPolicy.acess, kind]
      · exact kind
    · rw [fillsOf_read, accessStep, geometry]
      exact ages set
  | write addr value =>
    obtain ⟨way, rrIndex, kind, pointers⟩ := turns.victim recorded addr
    have positive := recorded.wellFormed.ways
    have set := CacheMemory.victim_set c addr
    have order := turns.choose_spec.2
    refine ⟨rrIndex, ?_, fun other => ?_⟩
    · simp only [accessStep, CacheMemory.write, ReplacementPolicy.acess, kind]
    · simp only [accessStep]
      rw [fillsOf_concat, set, way, pointers other]
      dsimp only
      change _ = Recency.inTurn c.numWays _ ∧ _ = pointerAfter c.numWays _
      by_cases here : (c.getIndex addr).toNat = other
      · subst here
        rw [if_pos ⟨rfl, rfl⟩, List.length_append, List.length_singleton, Recency.inTurn_succ,
          ← (order _).1]
        refine ⟨rfl, ?_⟩
        unfold pointerAfter
        by_cases full : c.numWays ≤ (fillsOf (c.getIndex addr).toNat log).length
        · rw [if_pos ⟨rfl, full⟩, if_neg (by omega)]
        · rw [if_neg fun both => full both.2, if_pos (by omega)]
          split
          · rfl
          · rw [show (fillsOf (c.getIndex addr).toNat log).length + 1 = c.numWays by omega,
              Nat.mod_self]
      · rw [if_neg fun both => here both.2, List.append_nil, if_neg fun both => here both.1.symm]
        exact ⟨(order other).1, rfl⟩

/-- The operations that write to a set. -/
def writesTo (g : CacheGeometry) (set : Nat) : CacheOp ValueType → Bool
  | .read _ => false
  | .write addr _ => (g.getIndex addr).toNat == set

/-- As many ways of a set were written as there were writes to it. -/
theorem length_fillsOf (start : Recorded g c []) (ops : List (CacheOp ValueType)) (set : Nat) :
    (fillsOf set (Machine.run accessStep c ops).2).length =
      (ops.filter (writesTo g set)).length := by
  refine (Machine.run_induction accessStep (P := fun t done log => Recorded g t log ∧
    (fillsOf set log).length = (done.filter (writesTo g set)).length) ⟨start, rfl⟩ ?_ ops).2
  rintro t done log op ⟨recorded, count⟩
  refine ⟨recorded.step op, ?_⟩
  rw [List.filter_append, List.length_append, ← count]
  cases op with
  | read addr =>
    rw [fillsOf_read]
    simp [writesTo]
  | write addr value =>
    simp only [accessStep]
    rw [fillsOf_concat, CacheMemory.victim_set, recorded.geometry]
    by_cases here : (g.getIndex addr).toNat = set <;> simp [writesTo, here]

variable {getLog2 : BitVec 32 → BitVec 32} {zeroed : ValueType} {rand : Nat → Nat}

theorem InTurn.run (created : CreatedWith "roundrobin" getLog2 zeroed rand c)
    (ops : List (CacheOp ValueType)) :
    Recorded c.toCacheGeometry (Machine.run accessStep c ops).1
        (Machine.run accessStep c ops).2 ∧
      InTurn (Machine.run accessStep c ops).1 (Machine.run accessStep c ops).2 := by
  obtain ⟨index, offset, ways, alocated⟩ := created.alocates
  have recorded := Recorded.created alocated
  refine Machine.run_induction accessStep
    (P := fun t _ log => Recorded c.toCacheGeometry t log ∧ InTurn t log)
    ⟨recorded, fun _ => 0, ?_, fun _ => ⟨rfl, ?_⟩⟩
    (fun t _ log op before => ⟨before.1.step op, before.2.step before.1 op⟩) ops
  · have named := (alocate_eq alocated).2.2
    rw [CacheMemory.setReplacementPolicy, if_neg (by decide), if_neg (by decide),
      if_pos rfl] at named
    rw [← Option.some.inj named]
    rfl
  · exact (if_pos recorded.wellFormed.ways).symm

/-- A write takes the way its number among the writes to its set says. -/
theorem victim_run (created : CreatedWith "roundrobin" getLog2 zeroed rand c)
    (start : Recorded c.toCacheGeometry c []) (ops : List (CacheOp ValueType)) (addr : BitVec 64) :
    ((Machine.run accessStep c ops).1.victim addr).1 = ((c.getIndex addr).toNat,
      (ops.filter (writesTo c.toCacheGeometry (c.getIndex addr).toNat)).length % c.numWays) := by
  obtain ⟨recorded, turns⟩ := InTurn.run created ops
  have chosen := (turns.victim recorded addr).1
  rw [recorded.geometry, length_fillsOf start] at chosen
  have row := CacheMemory.victim_set (Machine.run accessStep c ops).1 addr
  rw [recorded.geometry] at row
  exact Prod.ext row chosen

/-- For every round-robin cache and every run: a write that finds no empty way replaces
the one way of its set that was written longest ago, and which way a write takes is
settled by the earlier writes to its set alone. -/
theorem round_robin_is_fifo (created : CreatedWith "roundrobin" getLog2 zeroed rand c)
    (ops : List (CacheOp ValueType)) (addr : BitVec 64) :
    let t := (Machine.run accessStep c ops).1
    let set := (c.getIndex addr).toNat
    let fills := fillsOf set (Machine.run accessStep c ops).2
    (∀ value, t.findEmptyEntry addr = none →
      ∃ way, Recency.LeastRecent c.numWays fills way ∧
        (∀ other, Recency.LeastRecent c.numWays fills other → other = way) ∧
        (t.write addr value).entries = setCell t.entries set way
          { tag := c.getTag addr, index := c.getIndex addr, isValid := true, i := set, j := way } ∧
        (t.write addr value).data = setCell t.data set way value) ∧
    (t.victim addr).1 = ((Machine.run accessStep c
      (ops.filter (writesTo c.toCacheGeometry set))).1.victim addr).1 := by
  intro t set fills
  have start : Recorded c.toCacheGeometry c [] := by
    obtain ⟨index, offset, ways, alocated⟩ := created.alocates
    exact .created alocated
  have way := fun ops => victim_run created start ops addr
  constructor
  · intro value full
    obtain ⟨recorded, turns⟩ := InTurn.run created ops
    have geometry : t.toCacheGeometry = c.toCacheGeometry := recorded.geometry
    have order : fills = Recency.inTurn c.numWays fills.length := by
      obtain ⟨_, _, order⟩ := turns
      have here := (order set).1
      rw [recorded.geometry] at here
      exact here
    have positive := start.wellFormed.ways
    have all : c.numWays ≤ fills.length := by
      obtain ⟨a, member, fill, row, last⟩ :=
        recorded.filled_of_full full (show c.numWays - 1 < t.numWays by rw [geometry]; omega)
      rw [recorded.geometry] at row
      have found : c.numWays - 1 ∈ fills := by
        refine List.mem_map.mpr ⟨a, List.mem_filter.mpr ⟨member, ?_⟩, last⟩
        simp [fill, row, set]
      rw [order, Recency.mem_inTurn (by omega)] at found
      omega
    have least := Recency.leastRecent_inTurn positive all
    rw [← order] at least
    obtain ⟨entries, data⟩ := CacheMemory.write_cells recorded.wellFormed addr value
    have chosen : (t.victim addr).1.2 = fills.length % c.numWays := by
      rw [way ops, length_fillsOf start]
    rw [chosen, geometry] at entries data
    exact ⟨_, least, fun other least' => least.unique least', entries, data⟩
  · change ((Machine.run accessStep c ops).1.victim addr).1 = _
    rw [way ops, way, List.filter_filter]
    congr 4
    funext op
    exact (Bool.and_self _).symm

/-- Two ways, as `twoWays`. -/
def roundRobinWays : CacheMemory Nat :=
  (CacheMemory.fromBits 0 (fun _ => 0) 1 6 2 "roundrobin").get (by decide)

theorem roundRobinWays_createdWith :
    CreatedWith "roundrobin" (fun _ => 0) 0 (fun _ => 0) roundRobinWays :=
  .inl ⟨1, 6, 2, (Option.some_get _).symm⟩

theorem round_robin_is_fifo_of_two :
    ((Machine.run accessStep roundRobinWays
        [.write 0 1, .read 0, .write 64 5, .write 128 2]).1.victim 256).1 =
      ((Machine.run accessStep roundRobinWays
        ([.write 0 1, .read 0, .write 64 5, .write 128 2].filter
          (writesTo roundRobinWays.toCacheGeometry
            (roundRobinWays.getIndex 256).toNat))).1.victim 256).1 :=
  (round_robin_is_fifo roundRobinWays_createdWith
    [.write 0 1, .read 0, .write 64 5, .write 128 2] 256).2

end Sinuca3.Guarantees
