import Sinuca3.Guarantees.CacheRuns
import Sinuca3.Source.Utils.Cache.AddressFields

/-!
# Decomposition of addresses

The masks of a cache come from shifts by widths it is configured with. Where a width is
that of the word the shift leaves the one where it is, and the mask is zero: a fully
associative cache of lines of one octet has no tags, so that every address hits what was
written for any other.
-/
namespace Sinuca3.Guarantees
open Sinuca3.Source Lib

variable {ValueType : Type}

/-- Two addresses that differ in the offset at most. -/
def SameAboveOffset (g : CacheGeometry) (a b : BitVec 64) : Prop :=
  ∀ k, g.offsetBits.toNat ≤ k → a.getLsbD k = b.getLsbD k

/-- The fields of an address put together again. -/
def recomposed (g : CacheGeometry) (a : BitVec 64) : BitVec 64 :=
  g.getTag a <<< (g.indexBits.toNat + g.offsetBits.toNat) |||
    g.getIndex a <<< g.offsetBits.toNat ||| g.getOffset a

/-- An address is the sum of its fields, and tag and index say which line it is on. -/
structure Decomposes (g : CacheGeometry) : Prop where
  index_lt : ∀ a, (g.getIndex a).toNat < g.numSets
  lossless : ∀ a, recomposed g a = a
  lines : ∀ a b, SameLine g a b ↔ SameAboveOffset g a b

/-- After any run, a line that a read hits was last filled for the line of its address. -/
def ReadsOwnLines (c : CacheMemory ValueType) : Prop :=
  ∀ (ops : List (CacheOp ValueType)) (a : BitVec 64) (cell : Nat × Nat),
    (Machine.run accessStep c ops).1.getEntry a = some cell →
    ∃ b, filledFor cell.1 cell.2 (Machine.run accessStep c ops).2 = some b ∧
      SameAboveOffset c.toCacheGeometry b a

/-- No shift of the masks wraps: there is a tag narrower than an address, and an offset
narrower than an address. -/
def ShiftsInWidth (g : CacheGeometry) : Prop :=
  0 < g.indexBits.toNat + g.offsetBits.toNat ∧ g.offsetBits.toNat < 64

section Geometry

variable {numIndexBits numOffsetBits associativity : BitVec 32}

theorem decomposes_of_shiftsInWidth (index : numIndexBits.toNat < 32)
    (whole : numIndexBits.toNat + numOffsetBits.toNat ≤ 64)
    (within : ShiftsInWidth (.ofBits numIndexBits numOffsetBits associativity)) :
    Decomposes (.ofBits numIndexBits numOffsetBits associativity) := by
  obtain ⟨some, offset⟩ := within
  change 0 < numIndexBits.toNat + numOffsetBits.toNat at some
  change numOffsetBits.toNat < 64 at offset
  have getTag := fun a => CacheGeometry.getTag_ofBits _ _ associativity a some whole
  have getIndex := fun a => CacheGeometry.getIndex_ofBits _ _ associativity a offset index
  have getOffset := fun a => CacheGeometry.getOffset_ofBits numIndexBits _ associativity a offset
  constructor
  · exact fun a => CacheGeometry.getIndex_lt _ _ associativity a index
  · intro a
    rw [recomposed, getTag, getIndex, getOffset]
    change _ <<< (numIndexBits.toNat + numOffsetBits.toNat) ||| _ <<< numOffsetBits.toNat ||| _ = a
    rw [Nat.add_comm numIndexBits.toNat]
    exact BitField.fields_eq a _ _
  · intro a b
    rw [SameLine, getTag, getTag, getIndex, getIndex]
    exact BitField.fields_eq_iff a b _ _

/-- Where a shift wraps, one address or another is not the sum of its fields. -/
theorem not_lossless_of_wrap (whole : numIndexBits.toNat + numOffsetBits.toNat ≤ 64)
    (wraps : ¬ ShiftsInWidth (.ofBits numIndexBits numOffsetBits associativity)) :
    ¬ Decomposes (.ofBits numIndexBits numOffsetBits associativity) := by
  intro decomposes
  change ¬ (0 < numIndexBits.toNat + numOffsetBits.toNat ∧ numOffsetBits.toNat < 64) at wraps
  rcases Nat.eq_zero_or_pos (numIndexBits.toNat + numOffsetBits.toNat) with none | some
  · have index : numIndexBits = 0#32 := BitVec.eq_of_toNat_eq (by simp; omega)
    have offset : numOffsetBits = 0#32 := BitVec.eq_of_toNat_eq (by simp; omega)
    subst index offset
    have one : recomposed (.ofBits 0#32 0#32 1#32) 1 = 1 := decomposes.lossless 1
    revert one
    decide +kernel
  · have index : numIndexBits = 0#32 := BitVec.eq_of_toNat_eq (by simp; omega)
    have offset : numOffsetBits = 64#32 := BitVec.eq_of_toNat_eq (by simp; omega)
    subst index offset
    have one : recomposed (.ofBits 0#32 64#32 1#32) 1 = 1 := decomposes.lossless 1
    revert one
    decide +kernel

end Geometry

variable {getLog2 : BitVec 32 → BitVec 32} {zeroed : ValueType} {rand : Nat → Nat}
  {c : CacheMemory ValueType}

/-- For every cache whose index and offset fit in an address: its decomposition of
addresses is lossless and its reads hit lines of their own address if and only if there
are index or offset bits, and fewer than 64 offset bits. -/
theorem addresses_decompose (created : Created getLog2 zeroed rand c)
    (index : c.indexBits.toNat < 32)
    (whole : c.indexBits.toNat + c.offsetBits.toNat ≤ 64) :
    Decomposes c.toCacheGeometry ∧ ReadsOwnLines c ↔ ShiftsInWidth c.toCacheGeometry := by
  obtain ⟨numIndexBits, numOffsetBits, associativity, policy, alocated⟩ := created.alocates
  have recorded := Recorded.created alocated
  obtain ⟨geometry, _, _⟩ := alocate_eq alocated
  rw [geometry] at index whole
  constructor
  · rintro ⟨decomposes, _⟩
    by_contra wraps
    rw [geometry] at decomposes wraps
    exact not_lossless_of_wrap whole wraps decomposes
  · intro within
    have decomposes : Decomposes c.toCacheGeometry := by
      rw [geometry] at within ⊢
      exact decomposes_of_shiftsInWidth index whole within
    refine ⟨decomposes, fun ops a cell found => ?_⟩
    obtain ⟨b, filled, same⟩ := (recorded.run ops).hit found
    exact ⟨b, filled, (decomposes.lines b a).mp same⟩

theorem addresses_decompose_twoWays :
    Decomposes twoWays.toCacheGeometry ∧ ReadsOwnLines twoWays ↔
      ShiftsInWidth twoWays.toCacheGeometry :=
  addresses_decompose twoWays_created (by decide +kernel) (by decide +kernel)

/-- Fully associative, with lines of one octet. -/
def oneOctetLines : CacheMemory Nat :=
  (CacheMemory.fromNumSets (fun _ => 0) 0 (fun _ => 0) 1 1 2 "lru").get (by decide)

/-- A read of address 1 hits the line written for address 0. -/
theorem untagged_lines_alias :
    Created (fun _ => 0) 0 (fun _ => 0) oneOctetLines ∧
    oneOctetLines.indexBits.toNat < 32 ∧
    oneOctetLines.indexBits.toNat + oneOctetLines.offsetBits.toNat ≤ 64 ∧
    ¬ Decomposes oneOctetLines.toCacheGeometry ∧ ¬ ReadsOwnLines oneOctetLines := by
  refine ⟨.inr (.inl ⟨1, 1, 2, "lru", (Option.some_get _).symm⟩), by decide +kernel,
    by decide +kernel, ?_, ?_⟩
  · intro decomposes
    have one := decomposes.lossless 1
    revert one
    decide +kernel
  · intro reads
    obtain ⟨b, filled, same⟩ := reads [.write 0 7] 1 (0, 0) (by decide +kernel)
    have zero : b = 0 := by
      have first : filledFor 0 0 (Machine.run accessStep oneOctetLines [.write 0 7]).2 =
          some 0 := by decide +kernel
      rw [first] at filled
      exact (Option.some.inj filled).symm
    subst zero
    have bit := same 0 (by decide +kernel)
    revert bit
    decide +kernel

end Sinuca3.Guarantees
