import Mathlib.Algebra.Group.Nat.Defs
import Sinuca3.Guarantees.CacheRuns
import Sinuca3.Lib.Recency

/-!
# Least recently used

The counters of LRU are ages: as long as it is below their range, the counter of a way is
the number of uses of its set since its own last use. Ways that have been used differ in
that, so in a full set the greatest counter is that of one way.
-/
namespace Sinuca3.Guarantees
open Sinuca3.Source Lib

variable {ValueType : Type}

/-- The ways of a set that were used, in order. -/
def usesOf (set : Nat) (log : List CacheAccess) : List Nat :=
  (log.filter (·.set == set)).map (·.way)

/-- The age of a way among the uses of its set. -/
def age (log : List CacheAccess) (set way : Nat) : Nat := Recency.since way (usesOf set log)

theorem usesOf_concat (set : Nat) (log : List CacheAccess) (a : CacheAccess) :
    usesOf set (log ++ [a]) = usesOf set log ++ if a.set = set then [a.way] else [] := by
  by_cases here : a.set = set <;> simp [usesOf, here]

theorem age_concat (log : List CacheAccess) (a : CacheAccess) (set way : Nat) :
    age (log ++ [a]) set way =
      if set = a.set then if way = a.way then 0 else age log set way + 1
      else age log set way := by
  unfold age
  rw [usesOf_concat]
  by_cases here : a.set = set
  · subst here
    rw [if_pos rfl, if_pos rfl, Recency.since_concat]
    by_cases same : a.way = way
    · rw [if_pos same, if_pos same.symm]
    · rw [if_neg same, if_neg (Ne.symm same)]
  · rw [if_neg here, if_neg (Ne.symm here), List.append_nil]

/-- The counters are the ages, as far as 32 bits go. -/
def CountsAges (c : CacheMemory ValueType) (log : List CacheAccess) : Prop :=
  ∃ counters, c.policy.policy = .lru counters ∧
    ∀ set, ∀ way < c.numWays, counters set way = BitVec.ofNat 32 (age log set way)

variable {g : CacheGeometry} {c : CacheMemory ValueType} {log : List CacheAccess}

/-- The use of a line ages the other ways of its set. -/
theorem CountsAges.acess (recorded : Recorded g c log) (counts : CountsAges c log)
    (entry : CacheLine) (addr : BitVec 64) (fill : Bool) :
    ∃ counters, (c.policy.acess entry).policy = .lru counters ∧
      ∀ set, ∀ way < c.numWays, counters set way =
        BitVec.ofNat 32 (age (log ++ [⟨entry.i, entry.j, addr, fill⟩]) set way) := by
  obtain ⟨counters, kind, ages⟩ := counts
  obtain ⟨counters', kind', next⟩ := ReplacementPolicy.acess_lru kind entry
  refine ⟨counters', kind', fun set way inside => ?_⟩
  rw [next set way (by rw [recorded.wellFormed.samePolicy]; exact inside), age_concat,
    ages set way inside]
  dsimp only
  split
  · split
    · rfl
    · rw [BitVec.ofNat_add]
      rfl
  · rfl

theorem CountsAges.step (recorded : Recorded g c log) (counts : CountsAges c log)
    (op : CacheOp ValueType) :
    CountsAges (accessStep c op).1 (log ++ (accessStep c op).2) := by
  cases op with
  | read addr =>
    simp only [accessStep, CacheMemory.read]
    rcases c.getEntry addr with _ | ⟨set, way⟩
    · rw [Option.toList_none, List.map_nil, List.append_nil]
      exact counts
    · have used := counts.acess recorded (c.entries set way) addr false
      rw [(recorded.wellFormed.place set way).1, (recorded.wellFormed.place set way).2] at used
      exact used
  | write addr value =>
    have same : (c.victim addr).2 = c.policy := by
      obtain ⟨counters, kind, _⟩ := counts
      unfold CacheMemory.victim ReplacementPolicy.selectVictim
      rw [kind]
      split <;> rfl
    obtain ⟨place, place'⟩ := recorded.wellFormed.place (c.victim addr).1.1 (c.victim addr).1.2
    have used := counts.acess recorded
      { tag := c.getTag addr, index := c.getIndex addr, isValid := true,
        i := (c.victim addr).1.1, j := (c.victim addr).1.2 } addr true
    simp only [accessStep, CacheMemory.write, same, place, place']
    exact used

variable {getLog2 : BitVec 32 → BitVec 32} {zeroed : ValueType} {rand : Nat → Nat}

theorem CountsAges.run (created : CreatedWith "lru" getLog2 zeroed rand c)
    (ops : List (CacheOp ValueType)) :
    Recorded c.toCacheGeometry (Machine.run accessStep c ops).1
        (Machine.run accessStep c ops).2 ∧
      CountsAges (Machine.run accessStep c ops).1 (Machine.run accessStep c ops).2 := by
  obtain ⟨index, offset, ways, alocated⟩ := created.alocates
  refine Machine.run_induction accessStep
    (P := fun t _ log => Recorded c.toCacheGeometry t log ∧ CountsAges t log)
    ⟨.created alocated, fun _ _ => 0, ?_, fun _ _ _ => rfl⟩
    (fun t _ log op before => ⟨before.1.step op, before.2.step before.1 op⟩) ops
  have named := (alocate_eq alocated).2.2
  rw [CacheMemory.setReplacementPolicy, if_pos rfl] at named
  rw [← Option.some.inj named]
  rfl

/-- For every LRU cache and every run after which a write finds no empty way, and no way
of its set has seen 2^32 uses of the set since its own last use: one way was used longest
ago, and it is the one that is replaced. -/
theorem lru_replaces_least_recent (created : CreatedWith "lru" getLog2 zeroed rand c)
    (ops : List (CacheOp ValueType)) (addr : BitVec 64) (value : ValueType)
    (full : (Machine.run accessStep c ops).1.findEmptyEntry addr = none)
    (recent : ∀ way < c.numWays,
      age (Machine.run accessStep c ops).2 (c.getIndex addr).toNat way < 2 ^ 32) :
    let t := (Machine.run accessStep c ops).1
    let set := (c.getIndex addr).toNat
    let uses := usesOf set (Machine.run accessStep c ops).2
    ∃ way, Recency.LeastRecent c.numWays uses way ∧
      (∀ other, Recency.LeastRecent c.numWays uses other → other = way) ∧
      (t.write addr value).entries = setCell t.entries set way
        { tag := c.getTag addr, index := c.getIndex addr, isValid := true, i := set, j := way } ∧
      (t.write addr value).data = setCell t.data set way value := by
  obtain ⟨recorded, counters, kind, ages⟩ := CountsAges.run created ops
  intro t set uses
  have geometry : t.toCacheGeometry = c.toCacheGeometry := recorded.geometry
  have chosen : (t.victim addr).1.2 = ReplacementPolicy.lruVictim (counters set) c.numWays := by
    have none : t.findEmptyEntry addr = none := full
    have kind : t.policy.policy = .lru counters := kind
    unfold CacheMemory.victim ReplacementPolicy.selectVictim
    rw [none, kind]
    dsimp only
    rw [recorded.wellFormed.samePolicy, geometry]
  have inside : ReplacementPolicy.lruVictim (counters set) c.numWays < c.numWays := by
    rw [← chosen]
    have way := CacheMemory.victim_way_lt recorded.wellFormed addr
    rwa [geometry] at way
  have exactAge : ∀ way < c.numWays, (counters set way).toNat = Recency.since way uses := by
    intro way within
    rw [ages set way (by rw [geometry]; exact within), BitVec.toNat_ofNat]
    exact Nat.mod_eq_of_lt (recent way within)
  have least : Recency.LeastRecent c.numWays uses
      (ReplacementPolicy.lruVictim (counters set) c.numWays) := by
    apply Recency.leastRecent_of_max inside
    · intro way within
      obtain ⟨a, member, _, row, rfl⟩ :=
        recorded.filled_of_full full (by rw [geometry]; exact within)
      rw [geometry] at row
      exact List.mem_map.mpr ⟨a, List.mem_filter.mpr ⟨member, by simpa using row⟩, rfl⟩
    · intro way within
      rw [← exactAge way within, ← exactAge _ inside]
      exact ReplacementPolicy.le_lruVictim (counters set) c.numWays within
  obtain ⟨entries, data⟩ := CacheMemory.write_cells recorded.wellFormed addr value
  rw [chosen, geometry] at entries data
  exact ⟨_, least, fun other least' => least.unique least', entries, data⟩

theorem twoWays_createdWith_lru : CreatedWith "lru" (fun _ => 0) 0 (fun _ => 0) twoWays :=
  .inl ⟨1, 6, 2, (Option.some_get _).symm⟩

theorem lru_replaces_least_recent_of_two :
    ∃ way, Recency.LeastRecent twoWays.numWays (usesOf (twoWays.getIndex 256).toNat
      (Machine.run accessStep twoWays [.write 0 1, .write 128 2, .read 0]).2) way :=
  (lru_replaces_least_recent twoWays_createdWith_lru [.write 0 1, .write 128 2, .read 0] 256 3
    (by decide +kernel) (by decide +kernel)).imp fun _ replaced => replaced.1

end Sinuca3.Guarantees
