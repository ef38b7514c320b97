import Mathlib.Algebra.Group.Nat.Defs
import Sinuca3.Lib.Regions

/-!
# Arena

`utils/arena.hpp`. An arena is a chain of blocks, each with `size` octets in `mem` of which
`top` are given out; a request goes down the chain to the first block with enough left, and
is rounded up again in every block. What is allocated with `new` is there.
-/
namespace Sinuca3.Source
open Lib

structure ArenaBlock where
  top : Nat
  size : Nat
  deriving DecidableEq

/-- An `unsigned long`. -/
def ulong (n : Nat) : Nat := n % 2 ^ 64

theorem ulong_of_lt {n : Nat} (small : n < 2 ^ 64) : ulong n = n := Nat.mod_eq_of_lt small

namespace Arena

/-- The sum that rounds a size: a multiple of eight still grows by eight. -/
def rounding (size : Nat) : Nat := size + (8 - size % 8)

theorem lt_rounding (size : Nat) : size < rounding size := by
  unfold rounding
  omega

theorem rounding_mod (size : Nat) : rounding size % 8 = 0 := by
  unfold rounding
  omega

/-- The constructor. -/
def new (size : Nat) : ArenaBlock := { top := 0, size := ulong (rounding size) }

/-- A call that goes at most `depth` blocks down; `none` is not having returned. The block
of the region is counted from `this`, which is never null. -/
def alloc : Nat → List ArenaBlock → Nat → Option (Region × List ArenaBlock)
  | depth + 1, block :: next, size =>
    let size := ulong (rounding size)
    if block.size < ulong (block.top + size) then
      let next := if next = [] then [new (if size < block.size then block.size else size)] else next
      (alloc depth next size).map fun r =>
        ({ r.1 with block := r.1.block + 1 }, block :: r.2)
    else
      some ({ block := 0, offset := block.top, length := size },
        { block with top := ulong (block.top + size) } :: next)
  | _, _, _ => none

/-- No sum of a call wraps around: the sizes rounded, the tops and the size of a new block. -/
def SumsFit : List ArenaBlock → Nat → Prop
  | [], size => rounding size < 2 ^ 64
  | block :: next, size =>
    rounding size < 2 ^ 64 ∧ block.top + rounding size < 2 ^ 64 ∧
    (block.size < block.top + rounding size →
      rounding (max block.size (rounding size)) < 2 ^ 64 ∧ SumsFit next (rounding size))

instance decidableSumsFit : ∀ (blocks : List ArenaBlock) (size : Nat), Decidable (SumsFit blocks size)
  | [], size => inferInstanceAs (Decidable (rounding size < 2 ^ 64))
  | _ :: next, size =>
    have := decidableSumsFit next (rounding size)
    inferInstanceAs (Decidable (_ ∧ _ ∧ (_ → _ ∧ SumsFit next (rounding size))))

/-- What is given out of the block `i` of the chain. -/
def topOf (blocks : List ArenaBlock) (i : Nat) : Nat := (blocks[i]?.map (·.top)).getD 0

@[simp] theorem topOf_zero (block : ArenaBlock) (next : List ArenaBlock) :
    topOf (block :: next) 0 = block.top := rfl

@[simp] theorem topOf_succ (block : ArenaBlock) (next : List ArenaBlock) (i : Nat) :
    topOf (block :: next) (i + 1) = topOf next i := rfl

/-- A region of at least `size + 1` octets is given out of a block, which is one of the
chain or a new one. -/
structure Gives (blocks : List ArenaBlock) (size : Nat) (r : Region)
    (blocks' : List ArenaBlock) : Prop where
  offset : r.offset = topOf blocks r.block
  length : size + 1 ≤ r.length
  aligned : r.length % 8 = 0
  tops : ∀ i, topOf blocks' i = if i = r.block then r.stop else topOf blocks i
  inside : ∃ block, blocks'[r.block]? = some block ∧ r.stop ≤ block.size
  sizes : blocks.map (·.size) <+: blocks'.map (·.size)
  more : blocks'.length ≤ blocks.length + 1

/-- Further down the chain. -/
theorem Gives.down {next next' : List ArenaBlock} {size more : Nat} {r : Region}
    (gives : Gives next more r next') (enough : size ≤ more) (block : ArenaBlock) :
    Gives (block :: next) size { r with block := r.block + 1 } (block :: next') where
  offset := gives.offset
  length := Nat.le_trans (Nat.succ_le_succ enough) gives.length
  aligned := gives.aligned
  tops := by
    intro i
    cases i with
    | zero => rfl
    | succ i =>
      rw [topOf_succ, topOf_succ, gives.tops i]
      exact if_congr Nat.succ_inj.symm rfl rfl
  inside := gives.inside
  sizes := List.cons_prefix_cons.mpr ⟨rfl, gives.sizes⟩
  more := Nat.succ_le_succ gives.more

variable {depth size : Nat}

/-- A block with enough left. -/
theorem alloc_here (block : ArenaBlock) (next : List ArenaBlock) (rounded : rounding size < 2 ^ 64)
    (small : block.top + rounding size < 2 ^ 64)
    (fits : block.top + rounding size ≤ block.size) :
    alloc (depth + 1) (block :: next) size =
      some ({ block := 0, offset := block.top, length := rounding size },
        { block with top := block.top + rounding size } :: next) := by
  unfold alloc
  simp only [ulong_of_lt rounded, ulong_of_lt small, if_neg (Nat.not_lt.mpr fits)]

theorem gives_here {block : ArenaBlock} (next : List ArenaBlock)
    (fits : block.top + rounding size ≤ block.size) :
    Gives (block :: next) size { block := 0, offset := block.top, length := rounding size }
      ({ block with top := block.top + rounding size } :: next) where
  offset := rfl
  length := lt_rounding size
  aligned := rounding_mod size
  tops := by
    intro i
    cases i with
    | zero => rfl
    | succ i => rfl
  inside := ⟨_, rfl, fits⟩
  sizes := List.prefix_refl _
  more := Nat.le_succ _

/-- A block too full: the request is left to the next one, which may be new. -/
theorem alloc_down (block : ArenaBlock) (next : List ArenaBlock) (rounded : rounding size < 2 ^ 64)
    (small : block.top + rounding size < 2 ^ 64)
    (full : block.size < block.top + rounding size) :
    alloc (depth + 1) (block :: next) size =
      (alloc depth (if next = [] then [new (max block.size (rounding size))] else next)
        (rounding size)).map fun r => ({ r.1 with block := r.1.block + 1 }, block :: r.2) := by
  have larger : (if rounding size < block.size then block.size else rounding size) =
      max block.size (rounding size) := by
    split <;> omega
  rw [alloc]
  simp only [ulong_of_lt rounded, ulong_of_lt small, if_pos full, larger]

/-- A new block has room for the request rounded once more. -/
theorem rounding_le {least : Nat} (aligned : size % 8 = 0) (enough : size ≤ least) :
    rounding size ≤ rounding least := by
  unfold rounding
  omega

theorem gives_new {least : Nat} (fits : rounding size ≤ rounding least) :
    Gives [] size { block := 0, offset := 0, length := rounding size }
      [{ top := 0 + rounding size, size := rounding least }] where
  offset := rfl
  length := lt_rounding size
  aligned := rounding_mod size
  tops := by
    intro i
    cases i with
    | zero => rfl
    | succ i => rfl
  inside := by
    refine ⟨_, rfl, ?_⟩
    rw [Region.stop, Nat.zero_add]
    exact fits
  sizes := List.nil_prefix
  more := Nat.le_refl 1

/-- The call returns, however the requests before have filled the chain. -/
theorem alloc_gives (blocks : List ArenaBlock) : ∀ {depth size : Nat}, blocks ≠ [] →
    SumsFit blocks size → blocks.length < depth →
    ∃ r blocks', alloc depth blocks size = some (r, blocks') ∧ Gives blocks size r blocks' := by
  induction blocks with
  | nil => exact fun absent => absurd rfl absent
  | cons block next ih =>
    intro depth size _ fit deep
    obtain ⟨depth, rfl⟩ : ∃ depth', depth = depth' + 1 := ⟨depth - 1, by omega⟩
    have deep : next.length < depth := Nat.lt_of_succ_lt_succ deep
    obtain ⟨rounded, small, further⟩ := fit
    by_cases full : block.size < block.top + rounding size
    · obtain ⟨least, below⟩ := further full
      have enough : size ≤ rounding size := Nat.le_of_lt (lt_rounding size)
      rw [alloc_down block next rounded small full]
      cases next with
      | nil =>
        -- the recursion ends in the block that it has just made
        obtain ⟨depth, rfl⟩ : ∃ depth', depth = depth' + 1 := ⟨depth - 1, by omega⟩
        have room : rounding (rounding size) ≤ rounding (max block.size (rounding size)) :=
          rounding_le (rounding_mod size) (Nat.le_max_right ..)
        have size_new : new (max block.size (rounding size)) =
            { top := 0, size := rounding (max block.size (rounding size)) } := by
          rw [new, ulong_of_lt least]
        have sum : 0 + rounding (rounding size) < 2 ^ 64 := by
          rw [Nat.zero_add]
          exact below
        rw [if_pos rfl, size_new, alloc_here _ [] below sum (by rw [Nat.zero_add]; exact room)]
        exact ⟨_, _, rfl, (gives_new room).down enough block⟩
      | cons second rest =>
        obtain ⟨r, next', returned, gives⟩ := ih (List.cons_ne_nil second rest) below deep
        rw [if_neg (List.cons_ne_nil second rest), returned]
        exact ⟨_, _, rfl, gives.down enough block⟩
    · have fits := Nat.not_lt.mp full
      exact ⟨_, _, alloc_here block next rounded small fits, gives_here next fits⟩

end Arena
end Sinuca3.Source
