import Mathlib.Data.List.Forall2
import Sinuca3.Lib.Machine
import Sinuca3.Source.Utils.Arena

/-!
# What an arena gives out

The regions of every sequence of requests to an arena. A request is rounded to the next
multiple of eight even if it is one, so there is an octet more than asked for: the copies
of `StringMap::Insert` write their terminators there.
-/
namespace Sinuca3.Guarantees
open Sinuca3.Source Lib

/-- A call of at most `depth` blocks; `none` is not having returned. -/
def arenaStep (depth : Nat) (blocks : List ArenaBlock) (size : Nat) :
    List ArenaBlock × List (Option Region) :=
  match Arena.alloc depth blocks size with
  | some (r, blocks) => (blocks, [some r])
  | none => (blocks, [none])

/-- The regions given out for the sizes so far, and the chain they are in. -/
structure GivenOut (blocks : List ArenaBlock) (sizes : List Nat) (regions : List Region) : Prop where
  carved : Carved (Arena.topOf blocks) regions
  tops : ∀ i, Arena.topOf blocks i % 8 = 0
  chain : blocks ≠ []
  short : blocks.length ≤ sizes.length + 1
  large : List.Forall₂ (fun size r => size + 1 ≤ r.length) sizes regions
  placed : ∀ r ∈ regions, r.offset % 8 = 0 ∧
    ∃ size, (blocks.map (·.size))[r.block]? = some size ∧ r.stop ≤ size

theorem GivenOut.start (initial : Nat) : GivenOut [Arena.new initial] [] [] where
  carved := .nothing _
  tops := by
    intro i
    cases i with
    | zero => rfl
    | succ i => rfl
  chain := List.cons_ne_nil _ _
  short := Nat.le_refl 1
  large := .nil
  placed := fun _ member => nomatch member

theorem GivenOut.next {blocks blocks' : List ArenaBlock} {sizes : List Nat}
    {regions : List Region} {size : Nat} {r : Region} (before : GivenOut blocks sizes regions)
    (gives : Arena.Gives blocks size r blocks') :
    GivenOut blocks' (sizes ++ [size]) (regions ++ [r]) := by
  have begins : r.offset % 8 = 0 := by
    rw [gives.offset]
    exact before.tops r.block
  have ends : r.stop % 8 = 0 := by
    have aligned := gives.aligned
    unfold Region.stop
    omega
  have mark : Arena.topOf blocks r.block ≤ r.stop := by
    rw [← gives.offset]
    exact Nat.le_add_right _ _
  refine ⟨before.carved.cut (Nat.le_of_eq gives.offset.symm) (fun i => ?_) ?_, fun i => ?_, ?_, ?_,
    ?_, ?_⟩
  · rw [gives.tops]
    split
    next here =>
      rw [here]
      exact mark
    next => exact Nat.le_refl _
  · exact Nat.le_of_eq ((gives.tops r.block).trans (if_pos rfl)).symm
  · rw [gives.tops]
    split
    · exact ends
    · exact before.tops i
  · obtain ⟨block, found, _⟩ := gives.inside
    rintro rfl
    cases found
  · have more := gives.more
    have short := before.short
    rw [List.length_append, List.length_singleton]
    omega
  · exact List.rel_append before.large (.cons gives.length .nil)
  · intro s member
    rcases List.mem_append.mp member with old | new
    · obtain ⟨aligned, size, found, fits⟩ := before.placed s old
      obtain ⟨more, sizes⟩ := gives.sizes
      refine ⟨aligned, size, ?_, fits⟩
      rw [← sizes, List.getElem?_append_left (List.getElem?_eq_some_iff.mp found).1, found]
    · cases List.mem_singleton.mp new
      obtain ⟨block, found, fits⟩ := gives.inside
      refine ⟨begins, block.size, ?_, fits⟩
      rw [List.getElem?_map, found]
      rfl

/-- For every initial size and every sequence of requests whose sums do not wrap: each
returns, going down no more blocks than there have been requests, with a region of at least
one octet more than asked for, inside one block, from a multiple of eight octets on, and
apart from all the others. -/
theorem arena_allocations_disjoint (initial : Nat) {sizes : List Nat} {depth : Nat}
    (deep : sizes.length < depth)
    (fit : Machine.Meets (arenaStep depth) Arena.SumsFit [Arena.new initial] sizes) :
    let blocks := (Machine.run (arenaStep depth) [Arena.new initial] sizes).1
    ∃ regions : List Region,
      (Machine.run (arenaStep depth) [Arena.new initial] sizes).2 = regions.map some ∧
      List.Forall₂ (fun size r => size + 1 ≤ r.length) sizes regions ∧
      (∀ r ∈ regions, r.offset % 8 = 0 ∧
        ∃ block, blocks[r.block]? = some block ∧ r.offset + r.length ≤ block.size) ∧
      regions.Pairwise Region.Apart := by
  intro blocks
  have reached : sizes.length ≤ sizes.length → ∃ regions : List Region,
      (Machine.run (arenaStep depth) [Arena.new initial] sizes).2 = regions.map some ∧
      GivenOut blocks sizes regions := by
    refine Machine.run_induction_of_meets (arenaStep depth) Arena.SumsFit
      (P := fun blocks is os => is.length ≤ sizes.length → ∃ regions : List Region,
        os = regions.map some ∧ GivenOut blocks is regions) ?_ ?_ sizes fit
    · exact fun _ => ⟨[], rfl, .start initial⟩
    · intro blocks is os size before fit more
      rw [List.length_append, List.length_singleton] at more
      obtain ⟨regions, rfl, given⟩ := before (Nat.le_of_succ_le more)
      obtain ⟨r, blocks', returned, gives⟩ := Arena.alloc_gives blocks given.chain fit
        (Nat.lt_of_le_of_lt (Nat.le_trans given.short more) deep)
      refine ⟨regions ++ [r], ?_, ?_⟩
      · rw [arenaStep, returned, List.map_append]
        rfl
      · rw [arenaStep, returned]
        exact given.next gives
  obtain ⟨regions, log, given⟩ := reached (Nat.le_refl _)
  refine ⟨regions, log, given.large, fun r member => ?_, given.carved.apart⟩
  obtain ⟨aligned, size, found, fits⟩ := given.placed r member
  rw [List.getElem?_map] at found
  obtain ⟨block, here, rfl⟩ := Option.map_eq_some_iff.mp found
  exact ⟨aligned, block, here, fits⟩

/-- The second request fills the first block, and the third and the fourth make a new one
each. -/
theorem arena_allocations_disjoint_of_four :
    ∃ regions : List Region,
      (Machine.run (arenaStep 5) [Arena.new 20] [7, 8, 40, 0]).2 = regions.map some ∧
      List.Forall₂ (fun size r => size + 1 ≤ r.length) [7, 8, 40, 0] regions ∧
      (∀ r ∈ regions, r.offset % 8 = 0 ∧
        ∃ block, (Machine.run (arenaStep 5) [Arena.new 20] [7, 8, 40, 0]).1[r.block]? = some block ∧
          r.offset + r.length ≤ block.size) ∧
      regions.Pairwise Region.Apart :=
  arena_allocations_disjoint 20 (by decide) (by decide)

end Sinuca3.Guarantees
