import Mathlib.Data.List.Basic
import Sinuca3.Source.Utils.Cache.ReplacementPolicy

/-!
# Cache memory

`utils/cache/cacheMemory.hpp`. A pointer into `entries` is its row and its way;
allocations succeed. Shift counts are taken modulo the width of what is shifted,
as the processor does.
-/
namespace Sinuca3.Source

def shiftLeft64 (x : BitVec 64) (n : BitVec 32) : BitVec 64 := x <<< (n.toNat % 64)

def shiftRight64 (x : BitVec 64) (n : BitVec 32) : BitVec 64 := x >>> (n.toNat % 64)

/-- The parameters of a cache, which its creation fixes. -/
structure CacheGeometry where
  numWays : Nat
  numSets : Nat
  offsetBits : BitVec 32
  indexBits : BitVec 32
  tagBits : BitVec 32
  offsetMask : BitVec 64
  indexMask : BitVec 64
  tagMask : BitVec 64

namespace CacheGeometry

def getOffset (g : CacheGeometry) (addr : BitVec 64) : BitVec 64 := addr &&& g.offsetMask

def getIndex (g : CacheGeometry) (addr : BitVec 64) : BitVec 64 :=
  shiftRight64 (addr &&& g.indexMask) g.offsetBits

def getTag (g : CacheGeometry) (addr : BitVec 64) : BitVec 64 :=
  shiftRight64 (addr &&& g.tagMask) (g.offsetBits + g.indexBits)

def ofBits (numIndexBits numOffsetBits associativity : BitVec 32) : CacheGeometry :=
  let tagBits := 64 - (numIndexBits + numOffsetBits)
  { numWays := associativity.toNat
    numSets := ((1 : BitVec 32) <<< (numIndexBits.toNat % 32)).toNat
    offsetBits := numOffsetBits
    indexBits := numIndexBits
    tagBits := tagBits
    offsetMask := shiftLeft64 1 numOffsetBits - 1
    indexMask := shiftLeft64 (shiftLeft64 1 numIndexBits - 1) numOffsetBits
    tagMask := shiftLeft64 (shiftLeft64 1 tagBits - 1) (numOffsetBits + numIndexBits) }

end CacheGeometry

structure CacheMemory (ValueType : Type) extends CacheGeometry where
  entries : Nat → Nat → CacheLine
  data : Nat → Nat → ValueType
  policy : ReplacementPolicy
  statMiss : BitVec 64 := 0
  statHit : BitVec 64 := 0
  statAcess : BitVec 64 := 0
  statEvaction : BitVec 64 := 0

namespace CacheMemory

variable {ValueType : Type}

/-- `none` when the name is not that of a policy. -/
def setReplacementPolicy (numSets numWays : Nat) (rand : Nat → Nat) (policyName : String) :
    Option ReplacementPolicy :=
  if policyName = "lru" then some (.lru numSets numWays)
  else if policyName = "random" then some (.random numSets numWays rand)
  else if policyName = "roundrobin" then some (.roundRobin numSets numWays)
  else none

/-- The data starts as zero octets, whatever value these are. There is no cache without ways,
nor for a name that is no policy's; what the code does then is told apart in
`CacheCreation`. -/
def alocate (zeroed : ValueType) (rand : Nat → Nat)
    (numIndexBits numOffsetBits associativity : BitVec 32) (policy : String) :
    Option (CacheMemory ValueType) :=
  if associativity = 0 then none
  else
    let g := CacheGeometry.ofBits numIndexBits numOffsetBits associativity
    (setReplacementPolicy g.numSets g.numWays rand policy).map fun p =>
      { toCacheGeometry := g
        entries := fun i j => { i := i, j := j }
        data := fun _ _ => zeroed
        policy := p }

def fromBits (zeroed : ValueType) (rand : Nat → Nat)
    (numIndexBits numOffsetBits associativity : BitVec 32) (policy : String) :
    Option (CacheMemory ValueType) :=
  alocate zeroed rand numIndexBits numOffsetBits associativity policy

def checkIfPowerOfTwo (x : BitVec 64) : Bool := if x = 0 then false else x &&& (x - 1) == 0

/-- A number of sets that is no power of two is reported and used all the same.
`getLog2` is the quotient of two logarithms, rounded towards zero. -/
def fromNumSets (getLog2 : BitVec 32 → BitVec 32) (zeroed : ValueType) (rand : Nat → Nat)
    (numSets lineSize associativity : BitVec 32) (policy : String) :
    Option (CacheMemory ValueType) :=
  if associativity = 0 then none
  else if !checkIfPowerOfTwo (lineSize.setWidth 64) then none
  else alocate zeroed rand (getLog2 numSets) (getLog2 lineSize) associativity policy

/-- The division traps on a zero divisor, for which there is no cache. -/
def fromCacheSize (getLog2 : BitVec 32 → BitVec 32) (zeroed : ValueType) (rand : Nat → Nat)
    (cacheSize lineSize associativity : BitVec 32) (policy : String) :
    Option (CacheMemory ValueType) :=
  if lineSize * associativity = 0 then none
  else
    fromNumSets getLog2 zeroed rand (cacheSize / (lineSize * associativity)) lineSize
      associativity policy

section Creation

variable {getLog2 : BitVec 32 → BitVec 32} {zeroed : ValueType} {rand : Nat → Nat}
  {lineSize associativity : BitVec 32} {policy : String} {c : CacheMemory ValueType}

theorem fromNumSets_alocates {numSets : BitVec 32}
    (created : fromNumSets getLog2 zeroed rand numSets lineSize associativity policy = some c) :
    ∃ index offset, alocate zeroed rand index offset associativity policy = some c := by
  unfold fromNumSets at created
  split at created
  · cases created
  split at created
  · cases created
  exact ⟨_, _, created⟩

theorem fromCacheSize_alocates {cacheSize : BitVec 32}
    (created :
      fromCacheSize getLog2 zeroed rand cacheSize lineSize associativity policy = some c) :
    ∃ index offset, alocate zeroed rand index offset associativity policy = some c := by
  unfold fromCacheSize at created
  split at created
  · cases created
  · exact fromNumSets_alocates created

end Creation

/-- The first way of the row with a valid line of this tag. -/
def getEntry (c : CacheMemory ValueType) (addr : BitVec 64) : Option (Nat × Nat) :=
  let tag := c.getTag addr
  let index := (c.getIndex addr).toNat
  ((List.range c.numWays).find? fun way =>
    (c.entries index way).isValid && (c.entries index way).tag == tag).map fun way => (index, way)

/-- The first way of the row without a valid line. -/
def findEmptyEntry (c : CacheMemory ValueType) (addr : BitVec 64) : Option (Nat × Nat) :=
  let index := (c.getIndex addr).toNat
  ((List.range c.numWays).find? fun way => !(c.entries index way).isValid).map
    fun way => (index, way)

def read (c : CacheMemory ValueType) (addr : BitVec 64) :
    Option ValueType × CacheMemory ValueType :=
  match c.getEntry addr with
  | some (set, way) =>
    let line := c.entries set way
    (some (c.data line.i line.j),
      { c with
        policy := c.policy.acess line
        statAcess := c.statAcess + 1
        statHit := c.statHit + 1 })
  | none => (none, { c with statAcess := c.statAcess + 1, statMiss := c.statMiss + 1 })

/-- The cell `Write` puts its line in, and the policy after the choice. -/
def victim (c : CacheMemory ValueType) (addr : BitVec 64) : (Nat × Nat) × ReplacementPolicy :=
  match c.findEmptyEntry addr with
  | some cell => (cell, c.policy)
  | none => c.policy.selectVictim (c.getTag addr) (c.getIndex addr)

def write (c : CacheMemory ValueType) (addr : BitVec 64) (value : ValueType) :
    CacheMemory ValueType :=
  let tag := c.getTag addr
  let index := c.getIndex addr
  let (cell, policy) := c.victim addr
  let entry := c.entries cell.1 cell.2
  let line : CacheLine := { tag, index, isValid := true, i := entry.i, j := entry.j }
  { c with
    entries := setCell c.entries cell.1 cell.2 line
    policy := policy.acess line
    data := setCell c.data line.i line.j value
    statEvaction := c.statEvaction + 1 }

def getStatMiss (c : CacheMemory ValueType) : BitVec 64 := c.statMiss

def getStatHit (c : CacheMemory ValueType) : BitVec 64 := c.statHit

def getStatAcess (c : CacheMemory ValueType) : BitVec 64 := c.statAcess

def getStatEvaction (c : CacheMemory ValueType) : BitVec 64 := c.statEvaction

/-- The count of `getStatValidProp`, which goes through the lines row by row. -/
def validCount (c : CacheMemory ValueType) : Nat :=
  (List.range (c.numSets * c.numWays)).countP fun i =>
    (c.entries (i / c.numWays) (i % c.numWays)).isValid

/-- What creation establishes and every access keeps: each line knows its place,
and the policy chooses among the ways there are. -/
structure WellFormed (c : CacheMemory ValueType) : Prop where
  place : ∀ i j, (c.entries i j).i = i ∧ (c.entries i j).j = j
  ways : 0 < c.numWays
  samePolicy : c.policy.numWays = c.numWays
  inRange : c.policy.InRange

/-- The row a `Write` works on. -/
@[simp] theorem victim_set (c : CacheMemory ValueType) (addr : BitVec 64) :
    (c.victim addr).1.1 = (c.getIndex addr).toNat := by
  unfold victim findEmptyEntry
  split
  · rename_i cell found
    obtain ⟨way, _, rfl⟩ := Option.map_eq_some_iff.mp found
    rfl
  · exact ReplacementPolicy.selectVictim_set ..

theorem victim_way_lt {c : CacheMemory ValueType} (wellFormed : c.WellFormed) (addr : BitVec 64) :
    (c.victim addr).1.2 < c.numWays := by
  unfold victim findEmptyEntry
  split
  · rename_i cell found
    obtain ⟨way, first, rfl⟩ := Option.map_eq_some_iff.mp found
    exact List.mem_range.mp (List.mem_of_find?_eq_some first)
  · rw [← wellFormed.samePolicy]
    apply ReplacementPolicy.selectVictim_way_lt wellFormed.inRange
    rw [wellFormed.samePolicy]
    exact wellFormed.ways

theorem wellFormed_alocate {zeroed : ValueType} {rand : Nat → Nat}
    {numIndexBits numOffsetBits associativity : BitVec 32} {policy : String}
    {c : CacheMemory ValueType}
    (created : alocate zeroed rand numIndexBits numOffsetBits associativity policy = some c) :
    c.WellFormed := by
  unfold alocate at created
  split at created
  · cases created
  rename_i nonzero
  have ways : 0 < associativity.toNat := by
    apply Nat.pos_of_ne_zero
    intro zero
    exact nonzero (BitVec.eq_of_toNat_eq zero)
  obtain ⟨p, named, rfl⟩ := Option.map_eq_some_iff.mp created
  have fresh : p.numWays = associativity.toNat ∧ p.InRange := by
    unfold setReplacementPolicy at named
    split at named
    · cases named
      exact ⟨rfl, ReplacementPolicy.lru_inRange _ _⟩
    split at named
    · cases named
      exact ⟨rfl, ReplacementPolicy.random_inRange _ _ _⟩
    split at named
    · cases named
      exact ⟨rfl, ReplacementPolicy.roundRobin_inRange _ _ ways⟩
    · cases named
  constructor
  · exact fun i j => ⟨rfl, rfl⟩
  · exact ways
  · exact fresh.1
  · exact fresh.2

theorem read_wellFormed {c : CacheMemory ValueType} (before : c.WellFormed) (addr : BitVec 64) :
    (c.read addr).2.WellFormed := by
  unfold read
  split
  · constructor
    · exact before.place
    · exact before.ways
    · rw [ReplacementPolicy.acess_numWays]
      exact before.samePolicy
    · exact ReplacementPolicy.acess_inRange before.inRange _
  · exact ⟨before.place, before.ways, before.samePolicy, before.inRange⟩

theorem victim_policy {c : CacheMemory ValueType} (before : c.WellFormed) (addr : BitVec 64) :
    (c.victim addr).2.numWays = c.numWays ∧ (c.victim addr).2.InRange := by
  unfold victim
  split
  · exact ⟨before.samePolicy, before.inRange⟩
  · rw [ReplacementPolicy.selectVictim_numWays]
    refine ⟨before.samePolicy, ReplacementPolicy.selectVictim_inRange before.inRange ?_ _ _⟩
    rw [before.samePolicy]
    exact before.ways

/-- The line and the value of a `Write` are the only cells it changes. -/
theorem write_cells {c : CacheMemory ValueType} (before : c.WellFormed) (addr : BitVec 64)
    (value : ValueType) :
    let set := (c.getIndex addr).toNat
    let way := (c.victim addr).1.2
    (c.write addr value).entries = setCell c.entries set way
        { tag := c.getTag addr, index := c.getIndex addr, isValid := true, i := set, j := way } ∧
      (c.write addr value).data = setCell c.data set way value := by
  have place := before.place (c.getIndex addr).toNat (c.victim addr).1.2
  simp only [write, victim_set, place.1, place.2, and_self]

theorem write_wellFormed {c : CacheMemory ValueType} (before : c.WellFormed) (addr : BitVec 64)
    (value : ValueType) : (c.write addr value).WellFormed := by
  obtain ⟨entries, _⟩ := write_cells before addr value
  obtain ⟨numWays, inRange⟩ := victim_policy before addr
  constructor
  · intro i j
    rw [entries]
    by_cases here : i = (c.getIndex addr).toNat ∧ j = (c.victim addr).1.2
    · obtain ⟨rfl, rfl⟩ := here
      simp
    · rw [setCell_other _ _ _ _ _ _ here]
      exact before.place i j
  · exact before.ways
  · unfold write
    simpa using numWays
  · exact ReplacementPolicy.acess_inRange inRange _

end CacheMemory

end Sinuca3.Source
