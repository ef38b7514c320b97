import Sinuca3.Lib.Block
import Sinuca3.Lib.Codec

/-!
# Fields of records

A field of a record is what another codec reads at a place of the record's octets. A copy
of octets into a record gives the fields it covers the octets of its source, and leaves the
fields beside it alone.
-/
namespace Lib

variable {α β : Type} {c : Codec α} {d : Codec β}

/-- The value at a place of a record. -/
structure FieldAt (c : Codec α) (d : Codec β) (place : Nat) (value : α → β) : Prop where
  inside : place + d.width ≤ c.width
  decodes : ∀ octets, value (c.decode octets) = d.decode (Block.read octets place d.width)

/-- A copy of octets into a record. -/
def Codec.copied (c : Codec α) (record : α) (place : Nat) (source : List Byte) : α :=
  c.decode (Block.copy (c.encode record) place source)

namespace FieldAt

variable {place : Nat} {value : α → β}

theorem encodes (field : FieldAt c d place value) (record : α) :
    d.decode (Block.read (c.encode record) place d.width) = value record := by
  rw [← field.decodes, c.decode_encode]

/-- An element of an array. -/
theorem element {n : Nat} {array : α → Vector β n} (field : FieldAt c (d.vector n) place array)
    (i : Nat) (fits : i < n) :
    FieldAt c d (place + i * d.width) fun record => (array record)[i] := by
  have room : i * d.width + d.width ≤ n * d.width := by
    rw [← Nat.succ_mul]
    exact Nat.mul_le_mul_right _ fits
  have whole : place + n * d.width ≤ c.width := field.inside
  refine ⟨by omega, fun octets => ?_⟩
  have cell : d.chunk (Block.read octets place (n * d.width)) i =
      Block.read octets (place + i * d.width) d.width :=
    Block.read_read octets place _ _ _ room
  rw [field.decodes, ← cell]
  exact Vector.getElem_ofFn _

section Copied

variable (field : FieldAt c d place value) (record : α) {place' : Nat} {source : List Byte}
  (room : place' + source.length ≤ c.width)
include field room

theorem copied_inside (lower : place' ≤ place)
    (upper : place + d.width ≤ place' + source.length) :
    value (c.copied record place' source) =
      d.decode (Block.read source (place - place') d.width) := by
  rw [Codec.copied, field.decodes,
    Block.read_copy_inside _ _ _ (by rwa [c.length_encode]) _ _ lower upper]

theorem copied_outside (apart : place + d.width ≤ place' ∨ place' + source.length ≤ place) :
    value (c.copied record place' source) = value record := by
  rw [Codec.copied, field.decodes,
    Block.read_copy_outside _ _ _ (by rwa [c.length_encode]) _ _ apart, field.encodes]

end Copied
end FieldAt
end Lib
