import Sinuca3.Source.StdComponents.Itlb
import Sinuca3.Source.Utils.Cache.AddressFields

/-!
# How the cache factories end

`utils/cache/cacheMemory.hpp` and `iTLB::Configure`. The functions of the cache do not
tell a call that returns a null pointer from one that does not return, or that may not:
here these are told apart, and a cache is one whose lines can be counted with an `int`.
-/
namespace Sinuca3.Source

/-- How a call of a factory ends. -/
inductive CacheCreation (ValueType : Type) where
  | null
  | created (c : CacheMemory ValueType)
  | divisionByZero
  /-- `numSets`, `numWays` or their product is no `int`: there is no array to allocate. -/
  | tooManyLines
  /-- No policy has this name. The object is deleted before `entries`, `data` and `policy`
  are set, and its destructor deletes what they happen to point to. -/
  | deletesUnset

/-- Lines that an `int` counts. -/
def CacheGeometry.countable (g : CacheGeometry) : Bool := g.numSets * g.numWays < 2147483648

namespace CacheMemory

variable {ValueType : Type}

section Factories

variable (getLog2 : BitVec 32 → BitVec 32) (zeroed : ValueType) (rand : Nat → Nat)

def callAlocate (numIndexBits numOffsetBits associativity : BitVec 32) (policy : String) :
    CacheCreation ValueType :=
  if associativity = 0 then .null
  else
    match alocate zeroed rand numIndexBits numOffsetBits associativity policy with
    | none => .deletesUnset
    | some c => if c.countable then .created c else .tooManyLines

def callFromNumSets (numSets lineSize associativity : BitVec 32) (policy : String) :
    CacheCreation ValueType :=
  if associativity = 0 then .null
  else if !checkIfPowerOfTwo (lineSize.setWidth 64) then .null
  else callAlocate zeroed rand (getLog2 numSets) (getLog2 lineSize) associativity policy

def callFromCacheSize (cacheSize lineSize associativity : BitVec 32) (policy : String) :
    CacheCreation ValueType :=
  if lineSize * associativity = 0 then .divisionByZero
  else
    callFromNumSets getLog2 zeroed rand (cacheSize / (lineSize * associativity)) lineSize
      associativity policy

variable {getLog2 zeroed rand}

/-- A call that returns does so with what the function gives. -/
theorem fromNumSets_of_call {numSets lineSize associativity : BitVec 32} {policy : String} :
    (callFromNumSets getLog2 zeroed rand numSets lineSize associativity policy = .null →
      fromNumSets getLog2 zeroed rand numSets lineSize associativity policy = none) ∧
    ∀ c, callFromNumSets getLog2 zeroed rand numSets lineSize associativity policy = .created c →
      fromNumSets getLog2 zeroed rand numSets lineSize associativity policy = some c := by
  unfold callFromNumSets fromNumSets
  by_cases ways : associativity = 0
  · rw [if_pos ways, if_pos ways]
    exact ⟨fun _ => rfl, nofun⟩
  rw [if_neg ways, if_neg ways]
  split
  · exact ⟨fun _ => rfl, nofun⟩
  unfold callAlocate
  rw [if_neg ways]
  rcases alocate zeroed rand _ _ associativity policy with _ | c
  · exact ⟨nofun, nofun⟩
  · dsimp only
    split
    · exact ⟨nofun, fun _ created => by cases created; rfl⟩
    · exact ⟨nofun, nofun⟩

end Factories

theorem checkIfPowerOfTwo_iff (x : BitVec 64) :
    checkIfPowerOfTwo x = true ↔ x.toNat.isPowerOfTwo := by
  rw [← Nat.ne_zero_and_sub_one_eq_zero_iff_isPowerOfTwo]
  unfold checkIfPowerOfTwo
  by_cases zero : x = 0
  · subst zero
    decide
  · have positive : x.toNat ≠ 0 := fun none => zero (BitVec.eq_of_toNat_eq none)
    have pred : (x - 1).toNat = x.toNat - 1 := by
      rw [BitVec.toNat_sub_of_le]
      · rfl
      · rw [BitVec.le_def]
        exact Nat.one_le_iff_ne_zero.mpr positive
    rw [if_neg zero, beq_iff_eq, ← BitVec.toNat_inj, BitVec.toNat_and, pred]
    exact ⟨fun same => ⟨positive, same⟩, fun both => both.2⟩

/-- An `unsigned int` is passed as an `unsigned long`. -/
theorem checkIfPowerOfTwo_setWidth (x : BitVec 32) :
    checkIfPowerOfTwo (x.setWidth 64) = true ↔ x.toNat.isPowerOfTwo := by
  have whole : (x.setWidth 64).toNat = x.toNat := BitVec.toNat_setWidth_of_le (by decide)
  rw [checkIfPowerOfTwo_iff, whole]

theorem setReplacementPolicy_isSome (numSets numWays : Nat) (rand : Nat → Nat) (policy : String) :
    (setReplacementPolicy numSets numWays rand policy).isSome ↔
      policy ∈ ["lru", "random", "roundrobin"] := by
  unfold setReplacementPolicy
  split
  · simp_all
  split
  · simp_all
  split
  · simp_all
  · simp_all

end CacheMemory

/-- `Configure`, or nothing where it does not return. -/
def Itlb.callConfigure (getLog2 : BitVec 32 → BitVec 32) (rand : Nat → Nat)
    (entries associativity missPenalty : Int) (policy : Option String) (pageSize : Option Int) :
    Option (Except String Itlb) :=
  let entries := BitVec.ofInt 64 entries
  let numWays := BitVec.ofInt 64 associativity
  let pageSize := BitVec.ofInt 64 (pageSize.getD 4096)
  if entries = 0 then
    some (.error "Invalid value for iTLB parameter \"entries\": should be > 0.")
  else if numWays = 0 then
    some (.error "Invalid value for iTLB parameter \"associativity\": should be > 0.")
  else
    let numSets := (entries / numWays).setWidth 32
    match CacheMemory.callFromNumSets getLog2 0 rand numSets (pageSize.setWidth 32)
      (numWays.setWidth 32) (policy.getD "lru") with
    | .null => some (.error "iTLB: Failed to alocate CacheMemory\n")
    | .created cache => some (.ok { missPenalty, pendingRequests := .allocate 0, cache })
    | _ => none

/-- Where it returns, it is the function. -/
theorem Itlb.configure_of_call {getLog2 : BitVec 32 → BitVec 32} {rand : Nat → Nat}
    {entries associativity missPenalty : Int} {policy : Option String} {pageSize : Option Int}
    {result : Except String Itlb}
    (returns : callConfigure getLog2 rand entries associativity missPenalty policy pageSize =
      some result) :
    configure getLog2 rand entries associativity missPenalty policy pageSize = result := by
  unfold callConfigure at returns
  unfold configure
  dsimp only at returns ⊢
  split at returns
  · rename_i none
    rw [if_pos none]
    exact Option.some.inj returns
  rename_i some
  rw [if_neg some]
  split at returns
  · rename_i none
    rw [if_pos none]
    exact Option.some.inj returns
  rename_i ways
  rw [if_neg ways]
  split at returns
  · rename_i null
    rw [CacheMemory.fromNumSets_of_call.1 null]
    exact Option.some.inj returns
  · rename_i cache created
    rw [CacheMemory.fromNumSets_of_call.2 cache created]
    exact Option.some.inj returns
  · cases returns

end Sinuca3.Source
