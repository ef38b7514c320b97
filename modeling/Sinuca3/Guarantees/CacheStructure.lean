import Sinuca3.Guarantees.AddressDecomposition

/-!
# Structure of a cache and isolation of its sets

Lines are overwritten by copies that keep their position, and the data is addressed
through that position. Whatever the policy, a write stays in the row of its address.
-/
namespace Sinuca3.Guarantees
open Sinuca3.Source Lib

variable {ValueType : Type}

/-- Every way of the row of an address holds a valid line. -/
def RowFull (c : CacheMemory ValueType) (addr : BitVec 64) : Prop :=
  ∀ way < c.numWays, (c.entries (c.getIndex addr).toNat way).isValid = true

/-- What holds of a cache in every state of a run: lines are at their place and in the row
of their index and stay valid, a victim is selected in full rows only and among their
ways, and a write changes one line and one value of its row, which reads elsewhere do not
notice. -/
structure Isolated (c : CacheMemory ValueType) : Prop where
  place : ∀ set < c.numSets, ∀ way < c.numWays,
    (c.entries set way).i = set ∧ (c.entries set way).j = way
  index : ∀ set < c.numSets, ∀ way < c.numWays, (c.entries set way).isValid = true →
    (c.entries set way).index.toNat = set
  staysValid : ∀ op set way, (c.entries set way).isValid = true →
    ((accessStep c op).1.entries set way).isValid = true
  row : ∀ addr, (c.getIndex addr).toNat < c.numSets
  selectsWhenFull : ∀ addr, c.findEmptyEntry addr = none ↔ RowFull c addr
  selected : ∀ addr, RowFull c addr →
    (c.policy.selectVictim (c.getTag addr) (c.getIndex addr)).1.1 = (c.getIndex addr).toNat ∧
      (c.policy.selectVictim (c.getTag addr) (c.getIndex addr)).1.2 < c.numWays
  writes : ∀ addr value, ∃ way < c.numWays, ∃ line,
    (c.write addr value).entries = setCell c.entries (c.getIndex addr).toNat way line ∧
      (c.write addr value).data = setCell c.data (c.getIndex addr).toNat way value
  reads : ∀ addr value other, c.getIndex other ≠ c.getIndex addr →
    ((c.write addr value).read other).1 = (c.read other).1

theorem findEmptyEntry_eq_none (c : CacheMemory ValueType) (addr : BitVec 64) :
    c.findEmptyEntry addr = none ↔ RowFull c addr := by
  unfold CacheMemory.findEmptyEntry RowFull
  rw [Option.map_eq_none_iff, List.find?_eq_none]
  simp

variable {g : CacheGeometry} {c : CacheMemory ValueType} {log : List CacheAccess}

/-- Reads of one row do not notice a change of another. -/
theorem Recorded.read_write_other (recorded : Recorded g c log) (addr other : BitVec 64)
    (value : ValueType) (different : c.getIndex other ≠ c.getIndex addr) :
    ((c.write addr value).read other).1 = (c.read other).1 := by
  have wellFormed := recorded.wellFormed
  obtain ⟨entries, data⟩ := CacheMemory.write_cells wellFormed addr value
  have rows : (c.getIndex other).toNat ≠ (c.getIndex addr).toNat :=
    fun same => different (BitVec.eq_of_toNat_eq same)
  have line : ∀ way, (c.write addr value).entries (c.getIndex other).toNat way =
      c.entries (c.getIndex other).toNat way := by
    intro way
    rw [entries, setCell_other_row _ _ _ _ _ _ rows]
  have found : (c.write addr value).getEntry other = c.getEntry other := by
    unfold CacheMemory.getEntry
    change Option.map _ ((List.range c.numWays).find? fun way =>
      ((c.write addr value).entries (c.getIndex other).toNat way).isValid &&
        ((c.write addr value).entries (c.getIndex other).toNat way).tag == c.getTag other) = _
    simp only [line]
    rfl
  rw [read_result (CacheMemory.write_wellFormed wellFormed addr value),
    read_result wellFormed, found]
  rcases hit : c.getEntry other with _ | cell
  · rfl
  · rw [Option.map_some, Option.map_some, (getEntry_some hit).1, data,
      setCell_other_row _ _ _ _ _ _ rows]

theorem Recorded.staysValid (recorded : Recorded g c log) (op : CacheOp ValueType)
    (set way : Nat) (valid : (c.entries set way).isValid = true) :
    ((accessStep c op).1.entries set way).isValid = true := by
  cases op with
  | read addr =>
    change ((c.read addr).2.entries set way).isValid = true
    rw [(read_frame c addr).2.1]
    exact valid
  | write addr value =>
    change ((c.write addr value).entries set way).isValid = true
    rw [(CacheMemory.write_cells recorded.wellFormed addr value).1]
    by_cases here : set = (c.getIndex addr).toNat ∧ way = (c.victim addr).1.2
    · obtain ⟨rfl, rfl⟩ := here
      rw [setCell_same]
    · rw [setCell_other _ _ _ _ _ _ here]
      exact valid

theorem Recorded.isolated (recorded : Recorded g c log) (decomposes : Decomposes g) :
    Isolated c := by
  have wellFormed := recorded.wellFormed
  refine ⟨fun set _ way _ => wellFormed.place set way, fun set _ way _ valid => ?_,
    recorded.staysValid, fun addr => ?_, findEmptyEntry_eq_none c, fun addr _ => ?_,
    fun addr value => ?_, fun addr value other => recorded.read_write_other addr other value⟩
  · rw [recorded.lines] at valid ⊢
    rcases filled : filledFor set way log with _ | b
    · rw [filled] at valid
      cases valid
    · obtain ⟨a, last, rfl⟩ := Option.map_eq_some_iff.mp filled
      obtain ⟨member, kind⟩ := List.mem_filter.mp (List.mem_of_getLast? last)
      simp only [Bool.and_eq_true, beq_iff_eq] at kind
      rw [← kind.1.2]
      exact (recorded.used a member).1.symm
  · rw [recorded.geometry]
    exact decomposes.index_lt addr
  · have ways := wellFormed.ways
    rw [← wellFormed.samePolicy] at ways ⊢
    exact ⟨ReplacementPolicy.selectVictim_set .., ReplacementPolicy.selectVictim_way_lt
      wellFormed.inRange ways _ _⟩
  · obtain ⟨entries, data⟩ := CacheMemory.write_cells wellFormed addr value
    exact ⟨_, CacheMemory.victim_way_lt wellFormed addr, _, entries, data⟩

variable {getLog2 : BitVec 32 → BitVec 32} {zeroed : ValueType} {rand : Nat → Nat}

/-- For every cache with index or offset bits, fewer than 64 of them together, and a
number of lines that is an `int`, whatever its policy: it is isolated in every state of
every run. The number of its sets is two to the number of index bits. -/
theorem cache_isolated (created : Created getLog2 zeroed rand c)
    (some : 0 < c.indexBits.toNat + c.offsetBits.toNat)
    (tagged : c.indexBits.toNat + c.offsetBits.toNat < 64)
    (fits : 2 ^ c.indexBits.toNat * c.numWays < 2 ^ 31) (ops : List (CacheOp ValueType)) :
    Isolated (Machine.run accessStep c ops).1 := by
  obtain ⟨numIndexBits, numOffsetBits, associativity, policy, alocated⟩ := created.alocates
  have recorded := Recorded.created alocated
  obtain ⟨geometry, _, _⟩ := alocate_eq alocated
  have ways := recorded.wellFormed.ways
  have index : c.indexBits.toNat < 31 := by
    have sets : 2 ^ c.indexBits.toNat < 2 ^ 31 :=
      Nat.lt_of_le_of_lt (Nat.le_mul_of_pos_right _ ways) fits
    exact (Nat.pow_lt_pow_iff_right (by decide)).mp sets
  apply (recorded.run ops).isolated
  rw [geometry] at some tagged index ⊢
  apply decomposes_of_shiftsInWidth
  · change numIndexBits.toNat < 31 at index
    omega
  · exact Nat.le_of_lt tagged
  · refine ⟨some, Nat.lt_of_le_of_lt ?_ tagged⟩
    exact Nat.le_add_left _ _

theorem cache_isolated_two_lines :
    Isolated (Machine.run accessStep twoWays [.write 0 1, .read 8, .write 64 2]).1 :=
  cache_isolated twoWays_created (by decide +kernel) (by decide +kernel) (by decide +kernel) _

end Sinuca3.Guarantees
