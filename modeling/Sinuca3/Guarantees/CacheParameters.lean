import Sinuca3.Source.Utils.Cache.CacheFactories

/-!
# What the cache factories accept

Parameters are to be refused or to give the cache they ask for. A number of sets that is no
power of two is reported, but the cache is created all the same, with the power of two below
it; `fromCacheSize` divides by the size of a row before anything is checked, a product
that is cut to 32 bits; and an unknown policy is found after an object has been made, which
is deleted before its pointers are set.
-/
namespace Sinuca3.Guarantees
open Sinuca3.Source

variable {ValueType : Type}

/-- The logarithm is exact on powers of two. -/
def ExactOnPowers (getLog2 : BitVec 32 → BitVec 32) : Prop :=
  ∀ k < 32, getLog2 (BitVec.ofNat 32 (2 ^ k)) = BitVec.ofNat 32 k

/-- What every factory asks of a line and of the ways. -/
structure Accepted (lineSize associativity : BitVec 32) : Prop where
  line : lineSize.toNat.isPowerOfTwo
  ways : associativity ≠ 0

def KnownPolicy (policy : String) : Prop := policy ∈ ["lru", "random", "roundrobin"]

/-- The parameters documented for `fromNumSets`. -/
structure Documented (numSets lineSize associativity : BitVec 32) (policy : String) : Prop
    extends Accepted lineSize associativity where
  policy : KnownPolicy policy
  sets : numSets.toNat.isPowerOfTwo

/-- A cache of the sets asked for, or a null pointer if the parameters are not those
documented. -/
structure SetsAsAsked (numSets lineSize associativity : BitVec 32) (policy : String)
    (result : CacheCreation ValueType) : Prop where
  accepts : Documented numSets lineSize associativity policy →
    ∃ c, result = .created c ∧ c.numSets = numSets.toNat
  refuses : ¬ Documented numSets lineSize associativity policy → result = .null

/-- No trap, and no cache of another size than asked for, rounded down to whole sets. -/
def SizeAsAsked (cacheSize lineSize associativity : BitVec 32)
    (result : CacheCreation ValueType) : Prop :=
  result = .null ∨ ∃ c, result = .created c ∧
    c.numSets * associativity.toNat * lineSize.toNat =
      cacheSize.toNat - cacheSize.toNat % (associativity.toNat * lineSize.toNat)

/-- `Configure` refuses, or leaves a cache of the entries asked for. -/
def EntriesAsAsked (entries associativity : Int) (result : Option (Except String Itlb)) : Prop :=
  let entries := (BitVec.ofInt 64 entries).toNat
  let associativity := (BitVec.ofInt 64 associativity).toNat
  (∃ message, result = some (.error message)) ∨ ∃ t, result = some (.ok t) ∧
    t.cache.numSets * t.cache.numWays = entries / associativity * associativity

/-- So many sets of so many ways are a power of two of sets, and an `int` of lines. -/
def SetsFit (numSets associativity : Nat) : Prop :=
  numSets.isPowerOfTwo ∧ numSets * associativity < 2147483648

/-- The sets of a cache are as many as asked for if these are a power of two. -/
theorem shift_getLog2 {getLog2 : BitVec 32 → BitVec 32} (log : ExactOnPowers getLog2)
    (numSets : BitVec 32) :
    2 ^ ((getLog2 numSets).toNat % 32) = numSets.toNat ↔ numSets.toNat.isPowerOfTwo := by
  constructor
  · intro same
    exact ⟨_, same.symm⟩
  · rintro ⟨k, power⟩
    have small : k < 32 := by
      have bound := numSets.isLt
      rw [power] at bound
      exact (Nat.pow_lt_pow_iff_right (by decide)).mp bound
    have number : numSets = BitVec.ofNat 32 (2 ^ k) := by
      apply BitVec.eq_of_toNat_eq
      rw [BitVec.toNat_ofNat, ← power, Nat.mod_eq_of_lt numSets.isLt]
    have bits : (getLog2 numSets).toNat = k := by
      rw [number, log k small, BitVec.toNat_ofNat]
      exact Nat.mod_eq_of_lt (by omega)
    rw [bits, Nat.mod_eq_of_lt small, power]

section FromNumSets

variable (getLog2 : BitVec 32 → BitVec 32) (zeroed : ValueType) (rand : Nat → Nat)
  {lineSize associativity : BitVec 32} {policy : String}

theorem refused_null (numSets : BitVec 32) (refused : ¬ Accepted lineSize associativity) :
    CacheMemory.callFromNumSets getLog2 zeroed rand numSets lineSize associativity policy =
      .null := by
  unfold CacheMemory.callFromNumSets
  split
  · rfl
  rename_i ways
  split
  · rfl
  rename_i line
  have power : lineSize.toNat.isPowerOfTwo := by
    rw [← CacheMemory.checkIfPowerOfTwo_setWidth]
    simpa using line
  exact absurd ⟨power, ways⟩ refused

theorem callFromNumSets_accepted (numSets : BitVec 32)
    (accepted : Accepted lineSize associativity) :
    CacheMemory.callFromNumSets getLog2 zeroed rand numSets lineSize associativity policy =
      CacheMemory.callAlocate zeroed rand (getLog2 numSets) (getLog2 lineSize) associativity
        policy := by
  have power := (CacheMemory.checkIfPowerOfTwo_setWidth lineSize).mpr accepted.line
  unfold CacheMemory.callFromNumSets
  rw [if_neg accepted.ways, power, if_neg (by decide)]

theorem unknown_deletes (numSets : BitVec 32) (accepted : Accepted lineSize associativity)
    (unknown : ¬ KnownPolicy policy) :
    CacheMemory.callFromNumSets getLog2 zeroed rand numSets lineSize associativity policy =
      .deletesUnset := by
  have none := fun numSets numWays =>
    mt (CacheMemory.setReplacementPolicy_isSome numSets numWays rand policy).mp unknown
  simp only [Option.not_isSome_iff_eq_none] at none
  rw [callFromNumSets_accepted getLog2 zeroed rand numSets accepted]
  unfold CacheMemory.callAlocate CacheMemory.alocate
  rw [if_neg accepted.ways, if_neg accepted.ways]
  dsimp only
  rw [none]
  rfl

theorem alocate_known (numIndexBits numOffsetBits : BitVec 32) (ways : associativity ≠ 0)
    (known : KnownPolicy policy) :
    ∃ c : CacheMemory ValueType,
      CacheMemory.alocate zeroed rand numIndexBits numOffsetBits associativity policy = some c ∧
      c.numSets = 2 ^ (numIndexBits.toNat % 32) ∧ c.numWays = associativity.toNat := by
  obtain ⟨p, named⟩ := Option.isSome_iff_exists.mp
    ((CacheMemory.setReplacementPolicy_isSome
      (CacheGeometry.ofBits numIndexBits numOffsetBits associativity).numSets
      associativity.toNat rand policy).mpr known)
  refine ⟨?_, ?_, ?_, ?_⟩
  rotate_left
  · unfold CacheMemory.alocate
    rw [if_neg ways]
    dsimp only
    change Option.map _ (CacheMemory.setReplacementPolicy _ associativity.toNat rand policy) = _
    rw [named]
    rfl
  · exact CacheGeometry.numSets_ofBits numIndexBits numOffsetBits associativity
  · rfl

theorem known_creates (numSets : BitVec 32) (accepted : Accepted lineSize associativity)
    (known : KnownPolicy policy) :
    ∃ c : CacheMemory ValueType,
      CacheMemory.callFromNumSets getLog2 zeroed rand numSets lineSize associativity policy =
        (if c.countable then .created c else .tooManyLines) ∧
      c.numSets = 2 ^ ((getLog2 numSets).toNat % 32) ∧ c.numWays = associativity.toNat := by
  obtain ⟨c, made, sizes⟩ := alocate_known zeroed rand (getLog2 numSets) (getLog2 lineSize)
    accepted.ways known
  refine ⟨c, ?_, sizes⟩
  rw [callFromNumSets_accepted getLog2 zeroed rand numSets accepted]
  unfold CacheMemory.callAlocate
  rw [if_neg accepted.ways, made]

end FromNumSets

section Factories

variable {getLog2 : BitVec 32 → BitVec 32} (zeroed : ValueType) (rand : Nat → Nat)
  {lineSize associativity : BitVec 32} {policy : String}

/-- A cache is created of as many sets as the logarithm says, if the policy is known and an
`int` counts its lines. -/
theorem created_iff (numSets : BitVec 32) (accepted : Accepted lineSize associativity)
    (asked : Nat → Prop) :
    (∃ c, CacheMemory.callFromNumSets getLog2 zeroed rand numSets lineSize associativity policy =
        .created c ∧ asked c.numSets) ↔
      KnownPolicy policy ∧ asked (2 ^ ((getLog2 numSets).toNat % 32)) ∧
        2 ^ ((getLog2 numSets).toNat % 32) * associativity.toNat < 2147483648 := by
  by_cases known : KnownPolicy policy
  · obtain ⟨c, made, sets, ways⟩ := known_creates getLog2 zeroed rand numSets accepted known
    rw [and_iff_right known, made, CacheGeometry.countable, ← sets, ← ways]
    constructor
    · rintro ⟨c', created, same⟩
      split at created
      · rename_i fits
        cases created
        exact ⟨same, of_decide_eq_true fits⟩
      · cases created
    · rintro ⟨same, fits⟩
      rw [if_pos (decide_eq_true fits)]
      exact ⟨c, rfl, same⟩
  · rw [unknown_deletes getLog2 zeroed rand numSets accepted known]
    exact iff_of_false (fun ⟨_, created, _⟩ => by cases created) fun both => known both.1

/-- And these are as many as asked for if the parameter is a power of two. -/
theorem created_asked_iff (log : ExactOnPowers getLog2) (numSets : BitVec 32)
    (accepted : Accepted lineSize associativity) :
    (∃ c, CacheMemory.callFromNumSets getLog2 zeroed rand numSets lineSize associativity policy =
        .created c ∧ c.numSets = numSets.toNat) ↔
      KnownPolicy policy ∧ SetsFit numSets.toNat associativity.toNat := by
  rw [created_iff zeroed rand numSets accepted (· = numSets.toNat), shift_getLog2 log, SetsFit]
  refine and_congr_right fun _ => and_congr_right fun power => ?_
  rw [(shift_getLog2 log numSets).mpr power]

variable (getLog2) in
theorem accepted_not_null (numSets : BitVec 32) (accepted : Accepted lineSize associativity) :
    CacheMemory.callFromNumSets getLog2 zeroed rand numSets lineSize associativity policy ≠
      .null := by
  by_cases known : KnownPolicy policy
  · obtain ⟨c, made, _⟩ := known_creates getLog2 zeroed rand numSets accepted known
    rw [made]
    split <;> simp
  · rw [unknown_deletes getLog2 zeroed rand numSets accepted known]
    exact nofun

/-- A call of `fromNumSets` does what it is documented to do. -/
theorem setsAsAsked_iff (log : ExactOnPowers getLog2) (numSets : BitVec 32) :
    SetsAsAsked numSets lineSize associativity policy
        (CacheMemory.callFromNumSets getLog2 zeroed rand numSets lineSize associativity policy) ↔
      ¬ Accepted lineSize associativity ∨
        KnownPolicy policy ∧ SetsFit numSets.toNat associativity.toNat := by
  by_cases accepted : Accepted lineSize associativity
  · have created := @created_asked_iff _ _ zeroed rand _ _ policy log numSets accepted
    have some := @accepted_not_null _ getLog2 zeroed rand _ _ policy numSets accepted
    constructor
    · rintro ⟨accepts, refuses⟩
      by_cases documented : Documented numSets lineSize associativity policy
      · exact .inr (created.mp (accepts documented))
      · exact absurd (refuses documented) some
    · rintro (refused | ⟨known, fits⟩)
      · exact absurd accepted refused
      · exact ⟨fun _ => created.mpr ⟨known, fits⟩,
          fun none => absurd ⟨accepted, known, fits.1⟩ none⟩
  · have null := @refused_null _ getLog2 zeroed rand _ _ policy numSets accepted
    refine iff_of_true ⟨fun documented => ?_, fun _ => null⟩ (.inl accepted)
    exact absurd documented.toAccepted accepted

/-- So many octets rounded down to whole sets are so many sets. -/
theorem rounded_iff (sets size ways line : Nat) (positive : 0 < line * ways) :
    sets * ways * line = size - size % (ways * line) ↔ sets = size / (line * ways) := by
  have split := Nat.div_add_mod size (line * ways)
  have rounded : size - size % (line * ways) = size / (line * ways) * (line * ways) := by
    rw [Nat.mul_comm (size / _)]
    omega
  rw [Nat.mul_comm ways line, rounded, Nat.mul_assoc, Nat.mul_comm ways line]
  exact Nat.mul_left_inj (Nat.ne_of_gt positive)

/-- A call of `fromCacheSize` does what it is documented to do. -/
theorem sizeAsAsked_iff (log : ExactOnPowers getLog2) (cacheSize : BitVec 32) :
    SizeAsAsked cacheSize lineSize associativity
        (CacheMemory.callFromCacheSize getLog2 zeroed rand cacheSize lineSize associativity
          policy) ↔
      lineSize * associativity ≠ 0 ∧ (¬ Accepted lineSize associativity ∨
        KnownPolicy policy ∧ SetsFit (cacheSize.toNat / (lineSize.toNat * associativity.toNat))
          associativity.toNat) := by
  by_cases divides : lineSize * associativity = 0
  · refine iff_of_false ?_ fun both => both.1 divides
    unfold CacheMemory.callFromCacheSize
    rw [if_pos divides]
    rintro (null | ⟨c, created, _⟩)
    · cases null
    · cases created
  unfold CacheMemory.callFromCacheSize
  rw [if_neg divides, and_iff_right divides]
  by_cases accepted : Accepted lineSize associativity
  · have some := @accepted_not_null _ getLog2 zeroed rand _ _ policy
      (cacheSize / (lineSize * associativity)) accepted
    have positive : 0 < lineSize.toNat * associativity.toNat := by
      apply Nat.pos_of_ne_zero
      intro none
      apply divides
      apply BitVec.eq_of_toNat_eq
      rw [BitVec.toNat_mul, none]
      rfl
    unfold SizeAsAsked
    rw [or_iff_right some, or_iff_right (not_not.mpr accepted)]
    simp only [rounded_iff _ _ _ _ positive]
    by_cases whole : lineSize.toNat * associativity.toNat < 4294967296
    · have quotient : cacheSize.toNat / (lineSize.toNat * associativity.toNat) =
          (cacheSize / (lineSize * associativity)).toNat := by
        rw [BitVec.toNat_udiv, BitVec.toNat_mul, Nat.mod_eq_of_lt whole]
      rw [quotient]
      exact created_asked_iff zeroed rand log _ accepted
    · -- A set of more octets than any cache has.
      have none : cacheSize.toNat / (lineSize.toNat * associativity.toNat) = 0 :=
        Nat.div_eq_of_lt (Nat.lt_of_lt_of_le cacheSize.isLt (Nat.le_of_not_lt whole))
      rw [none, created_iff zeroed rand _ accepted (· = 0)]
      refine iff_of_false (fun both => ?_) fun fits => ?_
      · exact absurd both.2.1 (Nat.ne_of_gt (Nat.two_pow_pos _))
      · exact Nat.not_isPowerOfTwo_zero fits.2.1
  · exact iff_of_true (.inl (refused_null getLog2 zeroed rand _ accepted)) (.inl accepted)

end Factories

section Tlb

variable {getLog2 : BitVec 32 → BitVec 32} (rand : Nat → Nat)

/-- The cache of an iTLB has the ways it was created with. -/
theorem created_numWays {numSets lineSize associativity : BitVec 32} {policy : String}
    {zeroed : ValueType} {c : CacheMemory ValueType}
    (created : CacheMemory.callFromNumSets getLog2 zeroed rand numSets lineSize associativity
      policy = .created c) : c.numWays = associativity.toNat := by
  by_cases accepted : Accepted lineSize associativity
  · by_cases known : KnownPolicy policy
    · obtain ⟨c', made, _, ways⟩ := known_creates getLog2 zeroed rand numSets accepted known
      rw [made] at created
      split at created
      · cases created
        exact ways
      · cases created
    · rw [unknown_deletes getLog2 zeroed rand numSets accepted known] at created
      cases created
  · rw [refused_null getLog2 zeroed rand numSets accepted] at created
    cases created

/-- What `Configure` makes of what the factory returns. -/
def withCache (missPenalty : Int) : CacheCreation (BitVec 64) → Option (Except String Itlb)
  | .null => some (.error "iTLB: Failed to alocate CacheMemory\n")
  | .created cache => some (.ok { missPenalty, pendingRequests := .allocate 0, cache })
  | _ => none

/-- It creates the cache of the quotient, of what is left of it in 32 bits. -/
theorem callConfigure_eq {entries associativity missPenalty : Int} {policy : Option String}
    {pageSize : Option Int} (some : BitVec.ofInt 64 entries ≠ 0)
    (ways : BitVec.ofInt 64 associativity ≠ 0) :
    Itlb.callConfigure getLog2 rand entries associativity missPenalty policy pageSize =
      withCache missPenalty (CacheMemory.callFromNumSets getLog2 0 rand
        ((BitVec.ofInt 64 entries / BitVec.ofInt 64 associativity).setWidth 32)
        ((BitVec.ofInt 64 (pageSize.getD 4096)).setWidth 32)
        ((BitVec.ofInt 64 associativity).setWidth 32) (policy.getD "lru")) := by
  unfold Itlb.callConfigure
  dsimp only
  rw [if_neg some, if_neg ways]
  rfl

theorem entriesAsAsked_withCache (entries associativity missPenalty : Int)
    (result : CacheCreation (BitVec 64)) :
    EntriesAsAsked entries associativity (withCache missPenalty result) ↔
      result = .null ∨ ∃ c, result = .created c ∧ c.numSets * c.numWays =
        (BitVec.ofInt 64 entries).toNat / (BitVec.ofInt 64 associativity).toNat *
          (BitVec.ofInt 64 associativity).toNat := by
  unfold EntriesAsAsked
  cases result <;> simp [withCache]

/-- What is left of the quotient and of the associativity in 32 bits is all of them, if
the entries are to be counted with an `int`. -/
theorem entries_iff (log : ExactOnPowers getLog2) {entries associativity : BitVec 64}
    (ways : associativity.setWidth 32 ≠ 0) :
    (2 ^ ((getLog2 ((entries / associativity).setWidth 32)).toNat % 32) *
          (associativity.setWidth 32).toNat =
        entries.toNat / associativity.toNat * associativity.toNat ∧
      2 ^ ((getLog2 ((entries / associativity).setWidth 32)).toNat % 32) *
          (associativity.setWidth 32).toNat < 2147483648) ↔
      SetsFit (entries.toNat / associativity.toNat) associativity.toNat := by
  have power := shift_getLog2 log ((entries / associativity).setWidth 32)
  have sets := Nat.two_pow_pos ((getLog2 ((entries / associativity).setWidth 32)).toNat % 32)
  generalize 2 ^ ((getLog2 ((entries / associativity).setWidth 32)).toNat % 32) = n at power sets
  have positive : 0 < (associativity.setWidth 32).toNat :=
    Nat.pos_of_ne_zero fun none => ways (BitVec.eq_of_toNat_eq none)
  -- Where the entries fit, nothing is cut.
  have uncut : 0 < entries.toNat / associativity.toNat →
      entries.toNat / associativity.toNat * associativity.toNat < 2147483648 →
      (associativity.setWidth 32).toNat = associativity.toNat ∧
        ((entries / associativity).setWidth 32).toNat = entries.toNat / associativity.toNat := by
    intro some fits
    have nonzero : 0 < associativity.toNat := by
      by_contra none
      rw [Nat.eq_zero_of_not_pos none, Nat.div_zero] at some
      cases some
    have few := Nat.lt_of_le_of_lt (Nat.le_mul_of_pos_left _ some) fits
    have small := Nat.lt_of_le_of_lt (Nat.le_mul_of_pos_right _ nonzero) fits
    rw [BitVec.toNat_setWidth, BitVec.toNat_setWidth, BitVec.toNat_udiv]
    exact ⟨Nat.mod_eq_of_lt (by omega), Nat.mod_eq_of_lt (by omega)⟩
  constructor
  · rintro ⟨same, fits⟩
    have some : 0 < entries.toNat / associativity.toNat := by
      by_contra none
      have product := Nat.mul_pos sets positive
      rw [same, Nat.eq_zero_of_not_pos none, Nat.zero_mul] at product
      cases product
    rw [same] at fits
    obtain ⟨whole, quotient⟩ := uncut some fits
    rw [whole] at same positive
    rw [quotient] at power
    exact ⟨power.mp (Nat.eq_of_mul_eq_mul_right positive same), fits⟩
  · rintro ⟨isPower, fits⟩
    obtain ⟨whole, quotient⟩ := uncut (Nat.pos_of_isPowerOfTwo isPower) fits
    rw [quotient] at power
    rw [whole, power.mpr isPower]
    exact ⟨rfl, fits⟩

theorem entriesAsAsked_iff (log : ExactOnPowers getLog2) (entries associativity missPenalty : Int)
    (policy : Option String) (pageSize : Option Int) :
    EntriesAsAsked entries associativity
        (Itlb.callConfigure getLog2 rand entries associativity missPenalty policy pageSize) ↔
      BitVec.ofInt 64 entries = 0 ∨ BitVec.ofInt 64 associativity = 0 ∨
        ¬ Accepted ((BitVec.ofInt 64 (pageSize.getD 4096)).setWidth 32)
          ((BitVec.ofInt 64 associativity).setWidth 32) ∨
        KnownPolicy (policy.getD "lru") ∧
          SetsFit ((BitVec.ofInt 64 entries).toNat / (BitVec.ofInt 64 associativity).toNat)
          (BitVec.ofInt 64 associativity).toNat := by
  by_cases none : BitVec.ofInt 64 entries = 0
  · refine iff_of_true (.inl ?_) (.inl none)
    unfold Itlb.callConfigure
    dsimp only
    rw [if_pos none]
    exact ⟨_, rfl⟩
  by_cases noWays : BitVec.ofInt 64 associativity = 0
  · refine iff_of_true (.inl ?_) (.inr (.inl noWays))
    unfold Itlb.callConfigure
    dsimp only
    rw [if_neg none, if_pos noWays]
    exact ⟨_, rfl⟩
  rw [callConfigure_eq rand none noWays, or_iff_right none, or_iff_right noWays,
    entriesAsAsked_withCache]
  by_cases accepted : Accepted ((BitVec.ofInt 64 (pageSize.getD 4096)).setWidth 32)
    ((BitVec.ofInt 64 associativity).setWidth 32)
  · rw [or_iff_right (accepted_not_null _ 0 rand _ accepted), or_iff_right (not_not.mpr accepted),
      ← entries_iff log accepted.ways, ← created_iff (0 : BitVec 64) rand _ accepted fun sets =>
        sets * ((BitVec.ofInt 64 associativity).setWidth 32).toNat =
          (BitVec.ofInt 64 entries).toNat / (BitVec.ofInt 64 associativity).toNat *
            (BitVec.ofInt 64 associativity).toNat]
    refine exists_congr fun c => and_congr_right fun created => ?_
    rw [created_numWays rand created]
  · exact iff_of_true (.inl (refused_null _ 0 rand _ accepted)) (.inl accepted)

end Tlb

/-- For all parameters of 32 bits and every name of a policy, and a logarithm that is exact
on powers of two. `fromNumSets` does what is documented if and only if it refuses because of
the line or the ways, or the policy is known, the sets are a power of two and the lines an
`int`; `fromCacheSize` if and only if, besides, the size of a row is not cut to zero; and an
iTLB has the entries it is configured with if and only if its parameters are such. -/
theorem cache_factories {getLog2 : BitVec 32 → BitVec 32} (log : ExactOnPowers getLog2)
    (zeroed : ValueType) (rand : Nat → Nat)
    (cacheSize numSets lineSize associativity : BitVec 32) (policy : String)
    (entries ways missPenalty : Int) (name : Option String) (pageSize : Option Int) :
    (SetsAsAsked numSets lineSize associativity policy
        (CacheMemory.callFromNumSets getLog2 zeroed rand numSets lineSize associativity policy) ↔
      ¬ Accepted lineSize associativity ∨
        KnownPolicy policy ∧ SetsFit numSets.toNat associativity.toNat) ∧
    (SizeAsAsked cacheSize lineSize associativity
        (CacheMemory.callFromCacheSize getLog2 zeroed rand cacheSize lineSize associativity
          policy) ↔
      lineSize * associativity ≠ 0 ∧ (¬ Accepted lineSize associativity ∨
        KnownPolicy policy ∧ SetsFit (cacheSize.toNat / (lineSize.toNat * associativity.toNat))
          associativity.toNat)) ∧
    (EntriesAsAsked entries ways
        (Itlb.callConfigure getLog2 rand entries ways missPenalty name pageSize) ↔
      BitVec.ofInt 64 entries = 0 ∨ BitVec.ofInt 64 ways = 0 ∨
        ¬ Accepted ((BitVec.ofInt 64 (pageSize.getD 4096)).setWidth 32)
          ((BitVec.ofInt 64 ways).setWidth 32) ∨
        KnownPolicy (name.getD "lru") ∧
          SetsFit ((BitVec.ofInt 64 entries).toNat / (BitVec.ofInt 64 ways).toNat)
            (BitVec.ofInt 64 ways).toNat) :=
  ⟨setsAsAsked_iff zeroed rand log numSets, sizeAsAsked_iff zeroed rand log cacheSize,
    entriesAsAsked_iff rand log entries ways missPenalty name pageSize⟩

/-- The logarithm of the integers, rounded down. -/
def floorLog (x : BitVec 32) : BitVec 32 := BitVec.ofNat 32 x.toNat.log2

theorem exactOnPowers_floorLog : ExactOnPowers floorLog := by
  unfold ExactOnPowers
  decide

theorem setsFit_of_log {numSets associativity : Nat} (bits : Nat) (power : numSets = 2 ^ bits)
    (fits : numSets * associativity < 2147483648) : SetsFit numSets associativity :=
  ⟨⟨bits, power⟩, fits⟩

/-- A cache of 128 sets, one of 32768 octets, and an iTLB of 64 entries. -/
theorem cache_factories_of_a_cache :
    SetsAsAsked 128#32 64#32 4#32 "lru"
        (CacheMemory.callFromNumSets floorLog 0 (fun _ => 0) 128#32 64#32 4#32 "lru") ∧
      SizeAsAsked 32768#32 64#32 4#32
        (CacheMemory.callFromCacheSize floorLog 0 (fun _ => 0) 32768#32 64#32 4#32 "lru") ∧
      EntriesAsAsked 64 4 (Itlb.callConfigure floorLog (fun _ => 0) 64 4 20 none none) := by
  obtain ⟨sets, size, entries⟩ := cache_factories exactOnPowers_floorLog 0 (fun _ => 0) 32768#32
    128#32 64#32 4#32 "lru" 64 4 20 none none
  have known : KnownPolicy "lru" := by
    unfold KnownPolicy
    decide
  exact ⟨sets.mpr (.inr ⟨known, setsFit_of_log 7 rfl (by decide)⟩),
    size.mpr ⟨by decide, .inr ⟨known, setsFit_of_log 7 rfl (by decide)⟩⟩,
    entries.mpr (.inr (.inr (.inr ⟨known, setsFit_of_log 4 rfl (by decide)⟩)))⟩

/-- Three sets of one way come out as two, an unknown policy as the deletion of an object
that is not set up, `fromCacheSize` divides by zero when it is given no ways, and an iTLB of
twelve entries and four ways has eight. -/
theorem three_sets_are_two :
    ExactOnPowers floorLog ∧
      (∃ c, CacheMemory.callFromNumSets floorLog (0 : Nat) (fun _ => 0) 3#32 64#32 1#32 "lru" =
        .created c ∧ c.numSets = 2) ∧
      ¬ SetsAsAsked 3#32 64#32 1#32 "lru"
        (CacheMemory.callFromNumSets floorLog (0 : Nat) (fun _ => 0) 3#32 64#32 1#32 "lru") ∧
      ¬ SetsAsAsked 4#32 64#32 1#32 "fifo"
        (CacheMemory.callFromNumSets floorLog (0 : Nat) (fun _ => 0) 4#32 64#32 1#32 "fifo") ∧
      CacheMemory.callFromCacheSize floorLog (0 : Nat) (fun _ => 0) 32768#32 64#32 0#32 "lru" =
        .divisionByZero ∧
      ¬ EntriesAsAsked 12 4 (Itlb.callConfigure floorLog (fun _ => 0) 12 4 20 none none) := by
  refine ⟨exactOnPowers_floorLog, ⟨_, rfl, rfl⟩, fun asked => ?sets, fun asked => ?policy, rfl, ?_⟩
  case sets =>
    have null := asked.refuses fun documented => ?_
    · cases null
    · have power := documented.sets
      revert power
      decide
  case policy =>
    have null := asked.refuses fun documented => ?_
    · cases null
    · have known := documented.policy
      revert known
      unfold KnownPolicy
      decide
  · rintro (⟨_, refused⟩ | ⟨t, configured, same⟩)
    · cases refused
    · cases configured
      revert same
      decide

end Sinuca3.Guarantees
