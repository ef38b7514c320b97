import Mathlib.Data.BitVec

/-!
# Bit fields

The bits of a word from some place on, as masks and shifts take them out, and the word
put together again from fields that lie next to each other.
-/
namespace Lib.BitField

variable {w : Nat}

/-- A one shifted and decreased has all bits below the shift. -/
theorem getLsbD_mask (n k : Nat) :
    ((1#w <<< n) - 1#w).getLsbD k = (decide (k < n) && decide (k < w)) := by
  rcases Nat.lt_or_ge n w with inside | outside
  · have value : ((1#w <<< n) - 1#w).toNat = 2 ^ n - 1 := by
      have power : 2 ^ n < 2 ^ w := Nat.pow_lt_pow_right (by omega) inside
      have positive : 0 < 2 ^ n := Nat.two_pow_pos n
      have one : (1#w).toNat = 1 := by
        rw [BitVec.toNat_ofNat, Nat.mod_eq_of_lt]
        exact Nat.one_lt_two_pow (by omega)
      have shifted : (1#w <<< n).toNat = 2 ^ n := by
        rw [BitVec.toNat_shiftLeft, one, Nat.shiftLeft_eq, Nat.one_mul, Nat.mod_eq_of_lt power]
      rw [BitVec.toNat_sub_of_le, shifted, one]
      rw [BitVec.le_def, shifted, one]
      exact positive
    rw [BitVec.getLsbD, value, Nat.testBit_two_pow_sub_one]
    by_cases below : k < n
    · simp [below, Nat.lt_trans below inside]
    · simp [below]
  · have none : 1#w <<< n = 0#w := BitVec.shiftLeft_eq_zero outside
    rw [none, BitVec.zero_sub, BitVec.neg_one_eq_allOnes, BitVec.getLsbD_allOnes]
    by_cases below : k < w
    · simp [below, Nat.lt_of_lt_of_le below outside]
    · simp [below]

/-- What the field of so many bits at a place holds. -/
def field (x : BitVec w) (place bits : Nat) : BitVec w :=
  (x &&& (((1#w <<< bits) - 1#w) <<< place)) >>> place

theorem getLsbD_field (x : BitVec w) (place bits k : Nat) :
    (field x place bits).getLsbD k = (decide (k < bits) && x.getLsbD (place + k)) := by
  unfold field
  rw [BitVec.getLsbD_ushiftRight, BitVec.getLsbD_and, BitVec.getLsbD_shiftLeft, getLsbD_mask]
  by_cases inside : place + k < w
  · have within : k < w := Nat.lt_of_le_of_lt (Nat.le_add_left k place) inside
    have above : ¬ place + k < place := by omega
    rw [Nat.add_sub_cancel_left]
    simp only [inside, within, above, decide_true, decide_false, Bool.not_false, Bool.and_true,
      Bool.true_and]
    rw [Bool.and_comm]
  · simp [BitVec.getLsbD_of_ge _ _ (Nat.not_lt.mp inside)]

theorem toNat_field_lt (x : BitVec w) (place bits : Nat) : (field x place bits).toNat < 2 ^ bits := by
  apply Nat.lt_pow_two_of_testBit
  intro k above
  change (field x place bits).getLsbD k = false
  rw [getLsbD_field]
  simp [Nat.not_lt.mpr above]

/-- A field as a number. -/
theorem toNat_field (x : BitVec w) (place bits : Nat) :
    (field x place bits).toNat = x.toNat / 2 ^ place % 2 ^ bits := by
  apply Nat.eq_of_testBit_eq
  intro k
  change (field x place bits).getLsbD k = _
  rw [getLsbD_field, Nat.testBit_mod_two_pow, Nat.testBit_div_two_pow, Nat.add_comm]
  rfl

/-- Three fields that share out a word make it up. -/
theorem fields_eq (x : BitVec w) (low middle : Nat) :
    field x (low + middle) w <<< (low + middle) ||| field x low middle <<< low ||| field x 0 low =
      x := by
  apply BitVec.eq_of_getLsbD_eq
  intro k inside
  simp only [BitVec.getLsbD_or, BitVec.getLsbD_shiftLeft, getLsbD_field, inside]
  rcases Nat.lt_or_ge k low with first | first
  · simp [first, Nat.lt_of_lt_of_le first (Nat.le_add_right low middle)]
  · rcases Nat.lt_or_ge k (low + middle) with second | second
    · have rest : k - low < middle := by omega
      have place : low + (k - low) = k := by omega
      simp [second, Nat.not_lt.mpr first, rest, place]
    · have rest : k - (low + middle) < w := by omega
      have place : low + middle + (k - (low + middle)) = k := by omega
      simp [Nat.not_lt.mpr second, Nat.not_lt.mpr first, rest, place,
        Nat.not_lt.mpr (show middle ≤ k - low by omega)]

/-- Two words agree in both upper fields exactly when they agree above the lowest. -/
theorem fields_eq_iff (x y : BitVec w) (low middle : Nat) :
    field x (low + middle) w = field y (low + middle) w ∧ field x low middle = field y low middle ↔
      ∀ k, low ≤ k → x.getLsbD k = y.getLsbD k := by
  constructor
  · rintro ⟨upper, lower⟩ k above
    rcases Nat.lt_or_ge k (low + middle) with below | beyond
    · have bits := congrArg (fun z => BitVec.getLsbD z (k - low)) lower
      have place : low + (k - low) = k := by omega
      simp only [getLsbD_field, place] at bits
      simpa only [show k - low < middle by omega, decide_true, Bool.true_and] using bits
    · rcases Nat.lt_or_ge k w with inside | outside
      · have bits := congrArg (fun z => BitVec.getLsbD z (k - (low + middle))) upper
        have place : low + middle + (k - (low + middle)) = k := by omega
        simp only [getLsbD_field, place] at bits
        simpa only [show k - (low + middle) < w by omega, decide_true, Bool.true_and] using bits
      · rw [BitVec.getLsbD_of_ge x k outside, BitVec.getLsbD_of_ge y k outside]
  · intro same
    constructor <;> apply BitVec.eq_of_getLsbD_eq <;> intro k _
    · rw [getLsbD_field, getLsbD_field, same _ (by omega)]
    · rw [getLsbD_field, getLsbD_field, same _ (by omega)]

end Lib.BitField
