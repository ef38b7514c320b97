import Sinuca3.Lib.Codec

/-!
# Files

A file is its octets and a position, and every write succeeds. Writing behind the
end fills the gap with zeros. `Reserved` is the shape of a file whose first octets
are kept for a header that is written last.
-/
namespace Lib

structure File where
  content : List Byte := []
  position : Nat := 0
  deriving DecidableEq

namespace File

def ftell (f : File) : Nat := f.position

/-- From the start of the file. -/
def fseek (f : File) (position : Nat) : File := { f with position := position }

def rewind (f : File) : File := f.fseek 0

def fwrite (f : File) (data : List Byte) : File :=
  if data = [] then f
  else
    let gap := List.replicate (f.position - f.content.length) 0
    { content := (f.content ++ gap).take f.position ++ data ++
        f.content.drop (f.position + data.length)
      position := f.position + data.length }

/-- What reading can still return. -/
def remaining (f : File) : List Byte := f.content.drop f.position

/-- At most `count` octets, fewer where the file ends. -/
def fread (f : File) (count : Nat) : List Byte × File :=
  let data := f.remaining.take count
  (data, { f with position := f.position + data.length })

theorem remaining_fread (f : File) (count : Nat) :
    (f.fread count).2.remaining = f.remaining.drop count := by
  simp only [fread, remaining, List.length_take, List.length_drop]
  rw [← List.drop_drop]
  rcases Nat.le_total count (f.content.length - f.position) with enough | short
  · rw [Nat.min_eq_left enough]
  · rw [Nat.min_eq_right short, List.drop_eq_nil_of_le (by simp),
      List.drop_eq_nil_of_le (by simpa using short)]

/-- `data` has been written behind `size` reserved octets. -/
structure Reserved (size : Nat) (data : List Byte) (f : File) : Prop where
  position : f.position = size + data.length
  tail : f.content.drop size = data

theorem reserved_fseek (size : Nat) : Reserved size [] (fseek {} size) := ⟨rfl, by simp [fseek]⟩

theorem Reserved.length_le {size : Nat} {data : List Byte} {f : File}
    (before : Reserved size data f) : f.content.length ≤ f.position := by
  have length := congrArg List.length before.tail
  rw [List.length_drop] at length
  have position := before.position
  omega

theorem Reserved.fwrite {size : Nat} {data : List Byte} {f : File} (before : Reserved size data f)
    (more : List Byte) : Reserved size (data ++ more) (f.fwrite more) := by
  obtain rfl | nonempty := eq_or_ne more []
  · simpa [File.fwrite] using before
  have short := before.length_le
  have position := before.position
  generalize same : List.replicate (f.position - f.content.length) (0 : Byte) = gap
  have gapLength : gap.length = f.position - f.content.length := by
    rw [← same, List.length_replicate]
  have padded : (f.content ++ gap).length = f.position := by
    rw [List.length_append, gapLength]
    omega
  have front : (f.content ++ gap).drop size = data := by
    have length := congrArg List.length before.tail
    rw [List.length_drop] at length
    rw [List.drop_append, before.tail, List.drop_eq_nil_of_le (by omega), List.append_nil]
  have content : (f.fwrite more).content = f.content ++ gap ++ more := by
    rw [File.fwrite, if_neg nonempty, same]
    dsimp only
    rw [← padded, List.take_length, padded, List.drop_eq_nil_of_le (by omega), List.append_nil]
  refine ⟨?_, ?_⟩
  · rw [File.fwrite, if_neg nonempty, List.length_append]
    dsimp only
    omega
  · rw [content, List.drop_append_of_le_length (by omega), front]

/-- The header goes before everything written so far. -/
theorem Reserved.header {size : Nat} {data : List Byte} {f : File} (before : Reserved size data f)
    (header : List Byte) (length : header.length = size) (positive : 0 < size) :
    (f.rewind.fwrite header).content = header ++ data := by
  have nonempty : header ≠ [] := by
    rintro rfl
    rw [← length] at positive
    cases positive
  rw [File.fwrite, if_neg nonempty]
  simp [rewind, fseek, length, before.tail]

/-- Once the header has been read, the records remain. -/
theorem remaining_header (header data : List Byte) :
    (fread { content := header ++ data } header.length).1 = header ∧
      (fread { content := header ++ data } header.length).2.remaining = data := by
  refine ⟨by simp [fread, remaining], ?_⟩
  rw [remaining_fread]
  simp [remaining]

end File

/-- A refill of `count` records leaves in the file the records after them. -/
theorem Codec.records_fread {α : Type} (c : Codec α) (positive : 0 < c.width) (f : File)
    (count : Nat) :
    c.records (f.fread (count * c.width)).1 = (c.records f.remaining).take count ∧
      c.records (f.fread (count * c.width)).2.remaining = (c.records f.remaining).drop count := by
  rw [File.remaining_fread]
  exact ⟨c.records_take positive _ count, c.records_drop _ count⟩

end Lib
