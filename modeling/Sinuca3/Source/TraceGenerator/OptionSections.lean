import Mathlib.Algebra.Group.Nat.Defs
import Mathlib.Data.List.Basic
import Sinuca3.Source.Utils.Map

/-!
# Sections of an option

`SeparateStringInSections` of `x86_trace_generator/sinuca3_pintool.cpp`. The string is a
list of octets, which goes on behind the terminator; a section is the index at which it
starts. The index is an `unsigned int`, and a string with no separator in its first `2 ^ 32`
octets is gone through without end.
-/
namespace Sinuca3.Source

/-- The octets from an index on, as a string. -/
def stringAt (str : List (BitVec 8)) (index : Nat) : CString :=
  (str.drop index).takeWhile fun c => c ≠ 0

theorem stringAt_field (before : List (BitVec 8)) {field : CString} (text : 0 ∉ field)
    (behind : List (BitVec 8)) : stringAt (before ++ field ++ 0 :: behind) before.length = field := by
  have all : ∀ c ∈ field, decide (c ≠ 0) = true := by
    intro c member
    refine decide_eq_true ?_
    rintro rfl
    exact text member
  rw [stringAt, List.append_assoc, List.drop_left, List.takeWhile_append_of_pos all]
  exact List.append_nil field

theorem stringAt_append (before str : List (BitVec 8)) (index : Nat) :
    stringAt (before ++ str) (before.length + index) = stringAt str index := by
  rw [stringAt, List.drop_append, List.drop_eq_nil_of_le (Nat.le_add_right _ _),
    Nat.add_sub_cancel_left]
  rfl

structure Sections where
  /-- The return value. -/
  count : Nat
  sections : List Nat
  str : List (BitVec 8)

section Splitter

variable (separator : BitVec 8)

/-- The inner loop, with so many turns left: where it stops, and whether at a separator.
Nothing is returned if the turns or the octets do not suffice. -/
def findSeparator (str : List (BitVec 8)) : Nat → Nat → Option (Nat × Bool)
  | 0, _ => none
  | turns + 1, index =>
    match str[index]? with
    | none => none
    | some c =>
      if c = separator then some (index, true)
      else if c = 0 then some (index, false)
      else findSeparator str turns ((index + 1) % 2 ^ 32)

/-- The outer loop, with so many sections left. -/
def separateFrom (turns : Nat) : Nat → Nat → Sections → Option Sections
  | 0, _, r => some r
  | left + 1, index, r =>
    let r := { r with sections := r.sections ++ [index], count := r.count + 1 }
    match findSeparator separator r.str turns index with
    | none => none
    | some (_, false) => some r
    | some (stop, true) =>
      separateFrom turns left ((stop + 1) % 2 ^ 32) { r with str := r.str.set stop 0 }

def separateStringInSections (turns : Nat) (str : List (BitVec 8)) (numberOfSections : Nat) :
    Option Sections :=
  match str[0]? with
  | none => none
  | some c =>
    if c = 0 then some { count := 0, sections := [], str }
    else separateFrom separator turns numberOfSections 0 { count := 0, sections := [], str }

variable {separator} {str : List (BitVec 8)}

/-- The octet at an index is not one that the inner loop stops at. -/
def Passed (separator : BitVec 8) (str : List (BitVec 8)) (i : Nat) : Prop :=
  ∃ c, str[i]? = some c ∧ c ≠ separator ∧ c ≠ 0

/-- The loop stops at the first separator or terminator. -/
theorem findSeparator_stop {stop : Nat} {c : BitVec 8} (here : str[stop]? = some c)
    (ends : c = separator ∨ c = 0) (small : stop < 2 ^ 32) (left : Nat) :
    ∀ {turns index : Nat}, left < turns → index + left = stop →
      (∀ i, index ≤ i → i < stop → Passed separator str i) →
      findSeparator separator str turns index = some (stop, decide (c = separator)) := by
  induction left with
  | zero =>
    intro turns index enough last _
    obtain ⟨turns, rfl⟩ : ∃ less, turns = less + 1 := ⟨turns - 1, by omega⟩
    obtain rfl : index = stop := last
    rw [findSeparator, here]
    by_cases same : c = separator
    · simp [same]
    · have zero : c = 0 := ends.resolve_left same
      simp only [if_neg same, if_pos zero, decide_eq_false same]
  | succ left ih =>
    intro turns index enough last passed
    obtain ⟨turns, rfl⟩ : ∃ less, turns = less + 1 := ⟨turns - 1, by omega⟩
    obtain ⟨d, first, other, text⟩ := passed index (Nat.le_refl _) (by omega)
    have next : (index + 1) % 2 ^ 32 = index + 1 := Nat.mod_eq_of_lt (by omega)
    rw [findSeparator, first]
    simp only [if_neg other, if_neg text, next]
    exact ih (by omega) (by omega) fun i lower upper => passed i (by omega) upper

/-- The index comes round before it reaches a separator. -/
theorem findSeparator_never (passed : ∀ i < 2 ^ 32, Passed separator str i) (turns : Nat) :
    ∀ {index : Nat}, index < 2 ^ 32 → findSeparator separator str turns index = none := by
  induction turns with
  | zero => exact fun _ => rfl
  | succ turns ih =>
    intro index small
    obtain ⟨d, first, other, text⟩ := passed index small
    rw [findSeparator, first]
    simp only [if_neg other, if_neg text]
    exact ih (Nat.mod_lt _ (by decide))

/-- The octets of a field are passed. -/
theorem passed_field {before field behind : List (BitVec 8)}
    (clean : separator ∉ field) (text : 0 ∉ field) (i : Nat) (lower : before.length ≤ i)
    (upper : i < before.length + field.length) :
    Passed separator (before ++ field ++ behind) i := by
  have inside : i - before.length < field.length := by omega
  refine ⟨field[i - before.length], ?_, ?_, ?_⟩
  · rw [List.append_assoc, List.getElem?_append_right lower, List.getElem?_append_left inside,
      List.getElem?_eq_getElem inside]
  · exact fun same => clean (same ▸ List.getElem_mem inside)
  · exact fun zero => text (zero ▸ List.getElem_mem inside)

variable {before field behind : List (BitVec 8)} {turns : Nat} {r : Sections}

/-- A turn of the outer loop that ends at a separator, which it overwrites. -/
theorem separateFrom_field (left : Nat) {index : Nat} (start : before.length = index)
    (clean : separator ∉ field) (text : 0 ∉ field) (enough : field.length < turns)
    (small : index + field.length < 2 ^ 32)
    (str : r.str = before ++ field ++ separator :: behind) :
    separateFrom separator turns (left + 1) index r =
      separateFrom separator turns left ((index + field.length + 1) % 2 ^ 32)
        { count := r.count + 1
          sections := r.sections ++ [index]
          str := before ++ field ++ 0 :: behind } := by
  subst start
  have here : r.str[before.length + field.length]? = some separator := by
    rw [str, ← List.length_append]
    simp
  have stop := findSeparator_stop here (.inl rfl) small field.length enough rfl
    (fun i lower upper => by rw [str]; exact passed_field clean text i lower upper)
  have overwritten : r.str.set (before.length + field.length) 0 =
      before ++ field ++ 0 :: behind := by
    rw [str, ← List.length_append, List.set_append_right _ _ (Nat.le_refl _), Nat.sub_self]
    rfl
  rw [separateFrom]
  simp only [stop, decide_true, overwritten]

/-- One that ends at the terminator. -/
theorem separateFrom_last (left : Nat) {index : Nat} (start : before.length = index)
    (some_separator : separator ≠ 0) (clean : separator ∉ field) (text : 0 ∉ field)
    (enough : field.length < turns) (small : index + field.length < 2 ^ 32)
    (str : r.str = before ++ field ++ 0 :: behind) :
    separateFrom separator turns (left + 1) index r =
      some { r with count := r.count + 1, sections := r.sections ++ [index] } := by
  subst start
  have here : r.str[before.length + field.length]? = some 0 := by
    rw [str, ← List.length_append]
    simp
  have stop := findSeparator_stop here (.inr rfl) small field.length enough rfl
    (fun i lower upper => by rw [str]; exact passed_field clean text i lower upper)
  rw [decide_eq_false some_separator.symm] at stop
  rw [separateFrom]
  simp only [stop]

theorem length_splitOn (s : CString) : (s.splitOn separator).length = s.count separator + 1 := by
  induction s with
  | nil => rfl
  | cons c s ih =>
    rw [List.splitOn_cons_eq_if_modifyHead, List.count_cons]
    by_cases same : c = separator
    · simp [same, ih]
    · simp [same, ih]

/-- The octets of the first fields, with the separators between them. -/
def firstFields (separator : BitVec 8) (left : Nat) (s : CString) : CString :=
  [separator].intercalate ((s.splitOn separator).take left)

theorem length_intercalate_take (fields : List CString) (left : Nat) :
    ([separator].intercalate (fields.take left)).length ≤
      ([separator].intercalate fields).length := by
  induction fields generalizing left with
  | nil => rw [List.take_nil]
  | cons field fields ih =>
    cases left with
    | zero => exact Nat.zero_le _
    | succ left =>
      rw [List.take_succ_cons]
      cases fields with
      | nil => rw [List.take_nil]
      | cons next fields =>
        have rest := ih left
        rw [List.intercalate_cons_cons, List.append_assoc, List.length_append]
        cases left with
        | zero =>
          rw [List.take_zero, List.intercalate_singleton]
          exact Nat.le_add_right _ _
        | succ left =>
          rw [List.take_succ_cons] at rest
          rw [List.take_succ_cons, List.intercalate_cons_cons, List.append_assoc,
            List.length_append, List.length_append, List.length_append]
          exact Nat.add_le_add_left (Nat.add_le_add_left rest _) _

/-- The first fields are no longer than the string. -/
theorem length_firstFields (left : Nat) (s : CString) :
    (firstFields separator left s).length ≤ s.length := by
  calc (firstFields separator left s).length
      ≤ ([separator].intercalate (s.splitOn separator)).length :=
        length_intercalate_take (s.splitOn separator) left
    _ = s.length := by rw [List.intercalate_splitOn]

theorem firstFields_of_clean (left : Nat) (clean : separator ∉ field) :
    firstFields separator (left + 1) field = field := by
  rw [firstFields, List.splitOn_eq_singleton clean, List.take_succ_cons, List.take_nil,
    List.intercalate_singleton]

theorem firstFields_one (clean : separator ∉ field) (rest : CString) :
    firstFields separator 1 (field ++ separator :: rest) = field := by
  rw [firstFields, List.splitOn_append_cons_self_of_not_mem clean, List.take_succ_cons,
    List.take_zero, List.intercalate_singleton]

theorem firstFields_succ (left : Nat) (clean : separator ∉ field) (rest : CString) :
    firstFields separator (left + 2) (field ++ separator :: rest) =
      field ++ separator :: firstFields separator (left + 1) rest := by
  have more : (rest.splitOn separator).take (left + 1) ≠ [] := by
    rw [ne_eq, List.take_eq_nil_iff]
    simp
  rw [firstFields, List.splitOn_append_cons_self_of_not_mem clean, List.take_succ_cons,
    List.intercalate_cons_of_ne_nil more, List.append_assoc]
  rfl

/-- What the loop makes of the string `s`: its first fields are the sections that are added,
and nothing outside it is written. -/
def Separated (separator : BitVec 8) (left : Nat) (before s behind : List (BitVec 8))
    (r : Sections) : Prop :=
  ∃ (more : List Nat) (s' : List (BitVec 8)),
    (∀ turns, s.length < turns → separateFrom separator turns (left + 1) before.length r =
      some { count := r.count + more.length, sections := r.sections ++ more,
             str := before ++ s' ++ 0 :: behind }) ∧
    s'.length = s.length ∧
    more.map (stringAt (before ++ s' ++ 0 :: behind)) = (s.splitOn separator).take (left + 1)

section Separated

variable {before s rest behind : List (BitVec 8)} {r : Sections}

/-- A string without a separator is one field. -/
theorem separated_last (left : Nat) (some_separator : separator ≠ 0) (text : 0 ∉ s)
    (clean : separator ∉ s) (str : r.str = before ++ s ++ 0 :: behind)
    (small : before.length + (firstFields separator (left + 1) s).length < 2 ^ 32) :
    Separated separator left before s behind r := by
  rw [firstFields_of_clean left clean] at small
  refine ⟨[before.length], s, fun turns enough => ?_, rfl, ?_⟩
  · rw [separateFrom_last left rfl some_separator clean text enough small str, ← str]
    rfl
  · rw [List.splitOn_eq_singleton clean, List.map_singleton, stringAt_field before text,
      List.take_succ_cons, List.take_nil]

/-- The last section that there is room for ends at a separator. -/
theorem separated_room (text : 0 ∉ field ++ separator :: rest) (clean : separator ∉ field)
    (str : r.str = before ++ (field ++ separator :: rest) ++ 0 :: behind)
    (small : before.length +
      (firstFields separator 1 (field ++ separator :: rest)).length < 2 ^ 32) :
    Separated separator 0 before (field ++ separator :: rest) behind r := by
  rw [firstFields_one clean] at small
  rw [List.mem_append, not_or] at text
  have memory : r.str = before ++ field ++ separator :: (rest ++ 0 :: behind) := by
    rw [str]
    simp
  refine ⟨[before.length], field ++ 0 :: rest, fun turns enough => ?_, ?_, ?_⟩
  · rw [List.length_append] at enough
    have fits : field.length < turns := by omega
    rw [separateFrom_field 0 rfl clean text.1 fits small memory, separateFrom]
    simp
  · simp
  · have first := stringAt_field before text.1 (rest ++ 0 :: behind)
    have written : before ++ (field ++ 0 :: rest) ++ 0 :: behind =
        before ++ field ++ 0 :: (rest ++ 0 :: behind) := by simp
    rw [List.splitOn_append_cons_self_of_not_mem clean, List.map_singleton, written, first]
    rfl

/-- A field with its separator, before a string that is separated behind it. -/
theorem separated_field (left : Nat) (text : 0 ∉ field) (clean : separator ∉ field)
    (str : r.str = before ++ (field ++ separator :: rest) ++ 0 :: behind)
    (reach : before.length + field.length + 1 < 2 ^ 32)
    (others : Separated separator left (before ++ field ++ [0]) rest behind
      { count := r.count + 1
        sections := r.sections ++ [before.length]
        str := before ++ field ++ 0 :: (rest ++ 0 :: behind) }) :
    Separated separator (left + 1) before (field ++ separator :: rest) behind r := by
  obtain ⟨more, rest', loop, length, fields⟩ := others
  have memory : r.str = before ++ field ++ separator :: (rest ++ 0 :: behind) := by
    rw [str]
    simp
  have index : (before.length + field.length + 1) % 2 ^ 32 =
      (before ++ field ++ [0]).length := by
    rw [Nat.mod_eq_of_lt reach, List.length_append, List.length_append]
    rfl
  have written : before ++ (field ++ 0 :: rest') ++ 0 :: behind =
      before ++ field ++ [0] ++ rest' ++ 0 :: behind := by simp
  refine ⟨before.length :: more, field ++ 0 :: rest', fun turns enough => ?_, ?_, ?_⟩
  · rw [List.length_append, List.length_cons] at enough
    have fits : field.length < turns := by omega
    rw [separateFrom_field (left + 1) rfl clean text fits (by omega) memory, index]
    refine (loop turns (by omega)).trans ?_
    rw [written]
    simp [Nat.add_assoc, Nat.add_comm 1]
  · simp [length]
  · have first := stringAt_field before text (rest' ++ 0 :: behind)
    have same : before ++ field ++ 0 :: (rest' ++ 0 :: behind) =
        before ++ field ++ [0] ++ rest' ++ 0 :: behind := by simp
    rw [same] at first
    rw [List.splitOn_append_cons_self_of_not_mem clean, List.take_succ_cons, List.map_cons,
      written, fields, first]

end Separated

theorem separateFrom_eq (some_separator : separator ≠ 0) (left : Nat) :
    ∀ (before : List (BitVec 8)) {s behind : List (BitVec 8)} {r : Sections}, 0 ∉ s →
      r.str = before ++ s ++ 0 :: behind →
      before.length + (firstFields separator (left + 1) s).length < 2 ^ 32 →
      Separated separator left before s behind r := by
  induction left with
  | zero =>
    intro before s behind r text str small
    by_cases separates : separator ∈ s
    · obtain ⟨field, rest, rfl, clean⟩ := List.eq_append_cons_of_mem separates
      exact separated_room text clean str small
    · exact separated_last 0 some_separator text separates str small
  | succ left ih =>
    intro before s behind r text str small
    by_cases separates : separator ∈ s
    · obtain ⟨field, rest, rfl, clean⟩ := List.eq_append_cons_of_mem separates
      rw [firstFields_succ left clean, List.length_append, List.length_cons] at small
      rw [List.mem_append, not_or, List.mem_cons, not_or] at text
      have after : before ++ field ++ 0 :: (rest ++ 0 :: behind) =
          before ++ field ++ [0] ++ rest ++ 0 :: behind := by simp
      have within : (before ++ field ++ [0]).length +
          (firstFields separator (left + 1) rest).length < 2 ^ 32 := by
        rw [List.length_append, List.length_append, List.length_singleton]
        omega
      exact separated_field left text.1 clean str (by omega)
        (ih (before ++ field ++ [0]) text.2.2 after within)
    · exact separated_last (left + 1) some_separator text separates str small

/-- The fields of a string that are made sections. -/
def fieldsOf (separator : BitVec 8) (n : Nat) (s : CString) : List CString :=
  if s = [] then [] else (s.splitOn separator).take n

theorem separateStringInSections_eq {s : CString} {n : Nat} (text : 0 ∉ s)
    (some_separator : separator ≠ 0) (one : 1 ≤ n)
    (reach : (firstFields separator n s).length < 2 ^ 32) (behind : List (BitVec 8)) :
    ∃ (s' : List (BitVec 8)) (sections : List Nat), s'.length = s.length ∧
      sections.map (stringAt (s' ++ 0 :: behind)) = fieldsOf separator n s ∧
      ∀ turns, s.length < turns → separateStringInSections separator turns (s ++ 0 :: behind) n =
        some { count := sections.length, sections, str := s' ++ 0 :: behind } := by
  obtain ⟨left, rfl⟩ : ∃ left, n = left + 1 := ⟨n - 1, by omega⟩
  cases s with
  | nil => exact ⟨[], [], rfl, rfl, fun _ _ => rfl⟩
  | cons c rest =>
    have start : c ≠ 0 := fun zero => text (zero ▸ List.mem_cons_self ..)
    let untouched : Sections := { count := 0, sections := [], str := c :: rest ++ 0 :: behind }
    obtain ⟨more, s', loop, length, fields⟩ := separateFrom_eq some_separator left []
      text (show untouched.str = _ from rfl) (by rwa [List.length_nil, Nat.zero_add])
    refine ⟨s', more, length, ?_, fun turns enough => ?_⟩
    · rw [fieldsOf, if_neg (List.cons_ne_nil c rest)]
      exact fields
    · have first : (c :: rest ++ 0 :: behind)[0]? = some c := rfl
      rw [separateStringInSections, first]
      simp only [if_neg start]
      refine (loop turns enough).trans ?_
      rw [Nat.zero_add]
      rfl

end Splitter
end Sinuca3.Source
