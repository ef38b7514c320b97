import Mathlib.Data.List.Basic

/-!
# Regions cut from blocks

A region is an interval of the cells of one of several blocks. Blocks whose regions are
only ever cut above a mark keep them apart: a mark for each block, which never goes back,
is all that a cut has to look at.
-/
namespace Lib

structure Region where
  block : Nat
  offset : Nat
  length : Nat
  deriving DecidableEq

namespace Region

/-- The cell after the last one. -/
def stop (r : Region) : Nat := r.offset + r.length

/-- No cell is in both. -/
def Apart (r s : Region) : Prop :=
  r.block ≠ s.block ∨ r.stop ≤ s.offset ∨ s.stop ≤ r.offset

theorem Apart.symm {r s : Region} (apart : r.Apart s) : s.Apart r :=
  apart.imp Ne.symm Or.symm

end Region

/-- The regions end below the marks of their blocks and share no cell. -/
structure Carved (mark : Nat → Nat) (regions : List Region) : Prop where
  below : ∀ r ∈ regions, r.stop ≤ mark r.block
  apart : regions.Pairwise Region.Apart

namespace Carved

variable {mark mark' : Nat → Nat} {regions : List Region}

theorem nothing (mark : Nat → Nat) : Carved mark [] where
  below := fun _ member => nomatch member
  apart := .nil

/-- A region from the mark on. -/
theorem cut (carved : Carved mark regions) {r : Region} (above : mark r.block ≤ r.offset)
    (rises : ∀ block, mark block ≤ mark' block) (reaches : r.stop ≤ mark' r.block) :
    Carved mark' (regions ++ [r]) := by
  constructor
  · intro s member
    rcases List.mem_append.mp member with old | new
    · exact Nat.le_trans (carved.below s old) (rises s.block)
    · cases List.mem_singleton.mp new
      exact reaches
  · refine List.pairwise_append.mpr ⟨carved.apart, List.pairwise_singleton _ _, ?_⟩
    intro s old t new
    cases List.mem_singleton.mp new
    by_cases same : s.block = r.block
    · have low := carved.below s old
      rw [same] at low
      exact .inr (.inl (Nat.le_trans low above))
    · exact .inl same

end Carved
end Lib
