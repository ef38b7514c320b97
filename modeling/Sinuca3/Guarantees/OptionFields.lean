import Sinuca3.Source.TraceGenerator.OptionSections

/-!
# The fields of an option

What `SeparateStringInSections` makes of a string. Its index has 32 bits, and longer fields
than that it does not get through.
-/
namespace Sinuca3.Guarantees
open Sinuca3.Source

/-- What the splitter returns for a string and leaves in it are its first fields. -/
def SplitExactly (separator : BitVec 8) (n : Nat) (s : CString) (r : Sections) : Prop :=
  r.count = (if s = [] then 0 else min n (s.count separator + 1)) ∧
  r.sections.map (stringAt r.str) = if s = [] then [] else (s.splitOn separator).take n

/-- For every string, separator and number of sections: if the fields asked for, with the
separators between them, are shorter than `2 ^ 32` octets, the splitter returns after no
more turns for a field than the string has octets, having read and written nothing behind
the terminator. -/
theorem options_split_exactly {s : CString} {separator : BitVec 8} {n : Nat} (text : 0 ∉ s)
    (some_separator : separator ≠ 0) (one : 1 ≤ n)
    (reach : (firstFields separator n s).length < 2 ^ 32) (behind : List (BitVec 8)) :
    ∃ (s' : List (BitVec 8)) (r : Sections), s'.length = s.length ∧ r.str = s' ++ 0 :: behind ∧
      (∀ turns, s.length < turns →
        separateStringInSections separator turns (s ++ 0 :: behind) n = some r) ∧
      SplitExactly separator n s r := by
  obtain ⟨s', sections, length, fields, returned⟩ :=
    separateStringInSections_eq text some_separator one reach behind
  refine ⟨s', ⟨sections.length, sections, s' ++ 0 :: behind⟩, length, rfl, returned, ?_, fields⟩
  have count : sections.length = (fieldsOf separator n s).length := by
    rw [← fields, List.length_map]
  rw [count, fieldsOf]
  split
  · rfl
  · rw [List.length_take, length_splitOn]

/-- Three of the four fields of `a::b:c`. -/
theorem options_split_exactly_three :
    ∃ (s' : List (BitVec 8)) (r : Sections), s'.length = [97, 58, 58, 98, 58, 99].length ∧
      r.str = s' ++ 0 :: [] ∧
      (∀ turns, [97, 58, 58, 98, 58, 99].length < turns →
        separateStringInSections 58 turns ([97, 58, 58, 98, 58, 99] ++ 0 :: []) 3 = some r) ∧
      SplitExactly 58 3 [97, 58, 58, 98, 58, 99] r :=
  options_split_exactly (show (0 : BitVec 8) ∉ [97, 58, 58, 98, 58, 99] by decide)
    (show (58 : BitVec 8) ≠ 0 by decide) (show 1 ≤ 3 by decide) (by decide) []

/-- A string of `2 ^ 32` octets without a separator is gone through for ever. -/
theorem long_option_never_split :
    ¬ ∀ (s : CString) (separator : BitVec 8) (n : Nat), 0 ∉ s → separator ≠ 0 → 1 ≤ n →
      ∃ turns r, separateStringInSections separator turns (s ++ [0]) n = some r ∧
        SplitExactly separator n s r := by
  intro splits
  have text : (0 : BitVec 8) ∉ List.replicate (2 ^ 32) (97 : BitVec 8) := by
    intro member
    exact absurd (List.eq_of_mem_replicate member) (by decide)
  have octet : ∀ i < 2 ^ 32, (List.replicate (2 ^ 32) (97 : BitVec 8) ++ [0])[i]? = some 97 := by
    intro i small
    rw [List.getElem?_append_left (by rwa [List.length_replicate]), List.getElem?_replicate,
      if_pos small]
  obtain ⟨turns, r, returned, _⟩ := splits _ 58 1 text (by decide) (Nat.le_refl 1)
  have never : findSeparator 58 (List.replicate (2 ^ 32) (97 : BitVec 8) ++ [0]) turns 0 = none :=
    findSeparator_never (fun i small => ⟨97, octet i small, by decide, by decide⟩) turns (by decide)
  rw [separateStringInSections, octet 0 (by decide)] at returned
  simp only [if_neg (show (97 : BitVec 8) ≠ 0 by decide), separateFrom, never] at returned
  cases returned

end Sinuca3.Guarantees
