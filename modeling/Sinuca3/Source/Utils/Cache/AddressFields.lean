import Sinuca3.Lib.BitField
import Sinuca3.Source.Utils.Cache.CacheMemory

/-!
# The fields of an address

What the masks and shifts of `utils/cache/cacheMemory.hpp` take out of an address: the
offset, the index and the tag are bit fields that lie next to each other, unless a width
makes one of the shifts wrap.
-/
namespace Sinuca3.Source.CacheGeometry
open Lib

/-- Shift counts that stay below the width. -/
theorem shiftLeft64_of_lt (x : BitVec 64) {n : BitVec 32} (small : n.toNat < 64) :
    shiftLeft64 x n = x <<< n.toNat := by
  rw [shiftLeft64, Nat.mod_eq_of_lt small]

theorem shiftRight64_of_lt (x : BitVec 64) {n : BitVec 32} (small : n.toNat < 64) :
    shiftRight64 x n = x >>> n.toNat := by
  rw [shiftRight64, Nat.mod_eq_of_lt small]

variable (numIndexBits numOffsetBits associativity : BitVec 32)

/-- The shift that counts the sets is by the lowest five bits. -/
theorem numSets_ofBits :
    (ofBits numIndexBits numOffsetBits associativity).numSets =
      2 ^ (numIndexBits.toNat % 32) := by
  have within : numIndexBits.toNat % 32 < 32 := Nat.mod_lt _ (by decide)
  change ((1 : BitVec 32) <<< (numIndexBits.toNat % 32)).toNat = _
  rw [BitVec.toNat_shiftLeft, Nat.shiftLeft_eq]
  change 1 * _ % _ = _
  rw [Nat.one_mul, Nat.mod_eq_of_lt (Nat.pow_lt_pow_right (by decide) within)]

/-- An index is that of a set, wherever its bits are. -/
theorem getIndex_lt (addr : BitVec 64) (index : numIndexBits.toNat < 32) :
    ((ofBits numIndexBits numOffsetBits associativity).getIndex addr).toNat <
      (ofBits numIndexBits numOffsetBits associativity).numSets := by
  rw [numSets_ofBits, Nat.mod_eq_of_lt index]
  change (shiftRight64 (addr &&& shiftLeft64 (shiftLeft64 1 numIndexBits - 1) numOffsetBits)
    numOffsetBits).toNat < _
  rw [shiftLeft64_of_lt 1 (n := numIndexBits) (by omega)]
  exact BitField.toNat_field_lt addr (numOffsetBits.toNat % 64) numIndexBits.toNat

theorem getOffset_ofBits (addr : BitVec 64) (offset : numOffsetBits.toNat < 64) :
    (ofBits numIndexBits numOffsetBits associativity).getOffset addr =
      BitField.field addr 0 numOffsetBits.toNat := by
  simp only [getOffset, ofBits, shiftLeft64_of_lt _ offset, BitField.field,
    BitVec.shiftLeft_zero, BitVec.ushiftRight_zero]
  rfl

theorem getIndex_ofBits (addr : BitVec 64) (offset : numOffsetBits.toNat < 64)
    (index : numIndexBits.toNat < 32) :
    (ofBits numIndexBits numOffsetBits associativity).getIndex addr =
      BitField.field addr numOffsetBits.toNat numIndexBits.toNat := by
  simp only [getIndex, ofBits, shiftLeft64_of_lt _ offset, shiftRight64_of_lt _ offset,
    shiftLeft64_of_lt (n := numIndexBits) _ (by omega), BitField.field]
  rfl

/-- The bits for the tag are what is left of the 64. -/
theorem getTag_ofBits (addr : BitVec 64)
    (some : 0 < numIndexBits.toNat + numOffsetBits.toNat)
    (whole : numIndexBits.toNat + numOffsetBits.toNat ≤ 64) :
    (ofBits numIndexBits numOffsetBits associativity).getTag addr =
      BitField.field addr (numOffsetBits.toNat + numIndexBits.toNat) 64 := by
  have sum : (numIndexBits + numOffsetBits).toNat =
      numIndexBits.toNat + numOffsetBits.toNat := by
    rw [BitVec.toNat_add, Nat.mod_eq_of_lt (by omega)]
  have sum' : (numOffsetBits + numIndexBits).toNat =
      numOffsetBits.toNat + numIndexBits.toNat := by
    rw [BitVec.toNat_add, Nat.mod_eq_of_lt (by omega)]
  have tagBits : (64 - (numIndexBits + numOffsetBits)).toNat =
      64 - (numIndexBits.toNat + numOffsetBits.toNat) := by
    have le : numIndexBits + numOffsetBits ≤ 64 := by
      rw [BitVec.le_def, sum]
      exact whole
    rw [BitVec.toNat_sub_of_le le, sum]
    rfl
  have tagLt : (64 - (numIndexBits + numOffsetBits)).toNat < 64 := by omega
  apply BitVec.eq_of_getLsbD_eq
  intro k inside
  rw [BitField.getLsbD_field]
  simp only [getTag, ofBits, shiftLeft64_of_lt _ tagLt, tagBits]
  rcases Nat.lt_or_ge (numOffsetBits.toNat + numIndexBits.toNat) 64 with small | full
  · rw [shiftLeft64_of_lt _ (by omega), shiftRight64_of_lt _ (by omega), sum']
    change (BitField.field addr (numOffsetBits.toNat + numIndexBits.toNat)
      (64 - (numIndexBits.toNat + numOffsetBits.toNat))).getLsbD k = _
    rw [BitField.getLsbD_field]
    by_cases within : k < 64 - (numIndexBits.toNat + numOffsetBits.toNat)
    · simp [within, inside]
    · rw [BitVec.getLsbD_of_ge addr _ (by omega)]
      simp
  · -- No bit is left for the tag, so that its mask is zero wherever it is shifted to.
    have none : 64 - (numIndexBits.toNat + numOffsetBits.toNat) = 0 := by omega
    rw [none, BitVec.getLsbD_of_ge addr _ (by omega)]
    simp [shiftLeft64, shiftRight64]

end Sinuca3.Source.CacheGeometry
