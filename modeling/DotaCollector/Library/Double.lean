import Mathlib.Algebra.Ring.Nat
import Mathlib.Data.Nat.Log

/-!
# Natural numbers as doubles

A double has 53 significant bits. A natural number below `2 ^ 53` is a double; a larger one is
rounded to the nearest double, to the even one when two are equally near. No number of the
developments below comes near the largest double.
-/

namespace Double

/-- The double nearest to a natural number. -/
def number (value : Nat) : Nat :=
  let dropped := value.log2 - 52
  let kept := value >>> dropped
  let lost := value % 2 ^ dropped
  if 2 ^ dropped < 2 * lost ∨ (2 * lost = 2 ^ dropped ∧ kept % 2 = 1) then
    (kept + 1) <<< dropped
  else kept <<< dropped

theorem number_of_lt {value : Nat} (exact : value < 2 ^ 53) : number value = value := by
  have dropped : value.log2 - 52 = 0 := by
    rcases Nat.eq_zero_or_pos value with rfl | positive
    · rfl
    · have := (Nat.log2_lt (by omega)).mpr exact
      omega
  simp [number, dropped, Nat.mod_one]

/-- Rounding does not bring a large number below the range of the exact ones. -/
theorem le_number {value : Nat} (large : 2 ^ 53 ≤ value) : 2 ^ 53 ≤ number value := by
  have enough : 53 ≤ value.log2 := (Nat.le_log2 (by omega)).mpr large
  have top : 2 ^ value.log2 ≤ value := Nat.log2_self_le (by omega)
  have split : 2 ^ value.log2 = 2 ^ 52 * 2 ^ (value.log2 - 52) := by
    rw [← Nat.pow_add]
    congr 1
    omega
  have kept : 2 ^ 52 ≤ value / 2 ^ (value.log2 - 52) :=
    (Nat.le_div_iff_mul_le (Nat.two_pow_pos _)).mpr (by omega)
  have width : 2 ^ 1 ≤ 2 ^ (value.log2 - 52) := Nat.pow_le_pow_right (by decide) (by omega)
  have product : 2 ^ 52 * 2 ^ 1 ≤ value / 2 ^ (value.log2 - 52) * 2 ^ (value.log2 - 52) :=
    Nat.mul_le_mul kept width
  simp only [number, Nat.shiftLeft_eq, Nat.shiftRight_eq_div_pow]
  split_ifs
  · rw [Nat.add_mul]
    omega
  · omega

theorem min_le_number (value : Nat) : min value (2 ^ 53) ≤ number value := by
  rcases Nat.lt_or_ge value (2 ^ 53) with exact | large
  · rw [number_of_lt exact]
    exact Nat.min_le_left _ _
  · exact (Nat.min_le_right _ _).trans (le_number large)

/-- The doubles among the natural numbers: no bit below the 53 leading ones is set. -/
theorem number_eq_self_iff (value : Nat) :
    number value = value ↔ value % 2 ^ (value.log2 - 52) = 0 := by
  simp only [number, Nat.shiftLeft_eq, Nat.shiftRight_eq_div_pow]
  constructor
  · intro same
    split_ifs at same
    · have multiple := Nat.mul_mod_left (value / 2 ^ (value.log2 - 52) + 1)
        (2 ^ (value.log2 - 52))
      rwa [same] at multiple
    · have multiple := Nat.mul_mod_left (value / 2 ^ (value.log2 - 52)) (2 ^ (value.log2 - 52))
      rwa [same] at multiple
  · intro exact
    have positive := Nat.two_pow_pos (value.log2 - 52)
    rw [if_neg (by omega)]
    exact Nat.div_mul_cancel (Nat.dvd_of_mod_eq_zero exact)

example : number (2 ^ 53 + 1) = 2 ^ 53 := by decide +kernel

end Double
