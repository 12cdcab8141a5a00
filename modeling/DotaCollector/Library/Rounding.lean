import Mathlib.Algebra.Order.Field.Rat
import Mathlib.Data.Int.Log
import Mathlib.Data.Rat.Floor
import Mathlib.Tactic.Linarith
import Mathlib.Tactic.Ring

/-!
# Doubles among the rational numbers

A double has 53 significant bits. A rational number is rounded to the nearest double, to the even
one when two are equally near. `nearest` knows no bound for the exponents, which is right for
numbers that are neither near the largest doubles nor near the smallest; `finite` does.
-/

namespace Double

/-- The nearest integer, the even one when two are equally near. -/
def roundEven (x : ℚ) : ℤ :=
  if 1 / 2 < x - ⌊x⌋ ∨ (x - ⌊x⌋ = 1 / 2 ∧ ⌊x⌋ % 2 = 1) then ⌊x⌋ + 1 else ⌊x⌋

/-- The distance of the doubles around a number. -/
def ulp (x : ℚ) : ℚ := 2 ^ (Int.log 2 |x| - 52)

/-- The double nearest to a rational number. -/
def nearest (x : ℚ) : ℚ := roundEven (x / ulp x) * ulp x

/-- Round a rational number to the steps of the doubles, which are `2 ^ -1074` at the least. -/
def round (x : ℚ) : ℚ :=
  let step : ℚ := 2 ^ max (Int.log 2 |x| - 52) (-1074)
  roundEven (x / step) * step

/-- The finite double nearest to a rational number; what comes to `2 ^ 1024` is infinite. -/
def finite (x : ℚ) : Option ℚ := if |round x| < 2 ^ 1024 then some (round x) else none

/-- A rational number which is a double. -/
def IsDouble (x : ℚ) : Prop := nearest x = x

instance : DecidablePred IsDouble := fun x => decEq (nearest x) x

theorem ulp_pos (x : ℚ) : 0 < ulp x := zpow_pos (by norm_num) _

theorem floor_le_roundEven (x : ℚ) : ⌊x⌋ ≤ roundEven x := by
  rw [roundEven]
  split_ifs <;> omega

theorem roundEven_le (x : ℚ) : roundEven x ≤ ⌊x⌋ + 1 := by
  rw [roundEven]
  split_ifs <;> omega

theorem roundEven_mono {x y : ℚ} (le : x ≤ y) : roundEven x ≤ roundEven y := by
  have floors : ⌊x⌋ ≤ ⌊y⌋ := Int.floor_mono le
  rcases floors.lt_or_eq with less | same
  · have upper := roundEven_le x
    have lower := floor_le_roundEven y
    omega
  · rw [roundEven, roundEven, ← same]
    split_ifs with up still
    · exact le_rfl
    · refine absurd ?_ still
      rcases up with beyond | ⟨half, odd⟩
      · exact .inl (by linarith)
      · rcases (sub_le_sub_right le (⌊x⌋ : ℚ)).lt_or_eq with more | equal
        · exact .inl (half ▸ more)
        · exact .inr ⟨equal ▸ half, odd⟩
    · omega
    · exact le_rfl

theorem roundEven_le_add_half (x : ℚ) : roundEven x ≤ x + 1 / 2 := by
  have below := Int.floor_le x
  rw [roundEven]
  split_ifs with up
  · push_cast
    rcases up with beyond | ⟨half, -⟩ <;> linarith
  · linarith

@[simp]
theorem roundEven_intCast (n : ℤ) : roundEven n = n := by
  rw [roundEven, Int.floor_intCast, sub_self, if_neg]
  rintro (beyond | ⟨half, -⟩)
  · norm_num at beyond
  · norm_num at half

/-- Rounding goes up by half a step at most. -/
theorem nearest_le (x : ℚ) : nearest x ≤ x + ulp x / 2 := by
  calc nearest x ≤ (x / ulp x + 1 / 2) * ulp x :=
        mul_le_mul_of_nonneg_right (roundEven_le_add_half _) (ulp_pos x).le
    _ = x + ulp x / 2 := by
        rw [add_mul, div_mul_cancel₀ x (ulp_pos x).ne']
        ring

/-- A number lies within 2 ^ 52 and 2 ^ 53 of its steps. -/
theorem steps {x : ℚ} (positive : 0 < x) : 2 ^ 52 ≤ x / ulp x ∧ x / ulp x < 2 ^ 53 := by
  have low := Int.zpow_log_le_self (R := ℚ) (b := 2) (by norm_num) positive
  have high := Int.lt_zpow_succ_log_self (R := ℚ) (b := 2) (by norm_num) x
  rw [le_div_iff₀ (ulp_pos x), div_lt_iff₀ (ulp_pos x), ulp, abs_of_pos positive]
  rw [Nat.cast_ofNat] at low high
  constructor
  · rwa [← zpow_natCast, ← zpow_add₀ (by norm_num), Nat.cast_ofNat, add_sub_cancel]
  · rwa [← zpow_natCast, ← zpow_add₀ (by norm_num), Nat.cast_ofNat,
      show (53 : ℤ) + (Int.log 2 x - 52) = Int.log 2 x + 1 by ring]

/-- Rounding stays between the powers of two around a number. -/
theorem nearest_bounds {x : ℚ} (positive : 0 < x) :
    2 ^ Int.log 2 x ≤ nearest x ∧ nearest x ≤ 2 ^ (Int.log 2 x + 1) := by
  obtain ⟨low, high⟩ := steps positive
  have lower : (2 : ℚ) ^ 52 ≤ roundEven (x / ulp x) := by
    have bound := roundEven_mono low
    rw [show (2 : ℚ) ^ 52 = ((2 ^ 52 : ℤ) : ℚ) by norm_num, roundEven_intCast] at bound
    exact_mod_cast bound
  have upper : (roundEven (x / ulp x) : ℚ) ≤ 2 ^ 53 := by
    have bound := roundEven_mono high.le
    rw [show (2 : ℚ) ^ 53 = ((2 ^ 53 : ℤ) : ℚ) by norm_num, roundEven_intCast] at bound
    exact_mod_cast bound
  have scale : ulp x = 2 ^ (Int.log 2 x - 52) := by rw [ulp, abs_of_pos positive]
  constructor
  · calc (2 : ℚ) ^ Int.log 2 x = 2 ^ 52 * ulp x := by
          rw [scale, ← zpow_natCast, ← zpow_add₀ (by norm_num), Nat.cast_ofNat, add_sub_cancel]
      _ ≤ nearest x := mul_le_mul_of_nonneg_right lower (ulp_pos x).le
  · calc nearest x ≤ 2 ^ 53 * ulp x := mul_le_mul_of_nonneg_right upper (ulp_pos x).le
      _ = 2 ^ (Int.log 2 x + 1) := by
          rw [scale, ← zpow_natCast, ← zpow_add₀ (by norm_num), Nat.cast_ofNat]
          congr 1
          ring

theorem nearest_zero : nearest 0 = 0 := by
  rw [nearest, zero_div, show (0 : ℚ) = ((0 : ℤ) : ℚ) by norm_num, roundEven_intCast]
  simp

/-- Rounding keeps the order. -/
theorem nearest_mono {x y : ℚ} (nonneg : 0 ≤ x) (le : x ≤ y) : nearest x ≤ nearest y := by
  rcases nonneg.eq_or_lt with rfl | positive
  · rw [nearest_zero]
    rcases le.eq_or_lt with rfl | positive
    · exact nearest_zero.ge
    · exact (zpow_pos (by norm_num) _).le.trans (nearest_bounds positive).1
  · have larger : 0 < y := positive.trans_le le
    rcases (Int.log_mono_right (b := 2) positive le).lt_or_eq with less | same
    · calc nearest x ≤ 2 ^ (Int.log 2 x + 1) := (nearest_bounds positive).2
        _ ≤ 2 ^ Int.log 2 y := zpow_le_zpow_right₀ (by norm_num) less
        _ ≤ nearest y := (nearest_bounds larger).1
    · have scale : ulp x = ulp y := by rw [ulp, ulp, abs_of_pos positive, abs_of_pos larger, same]
      rw [nearest, nearest, scale]
      refine mul_le_mul_of_nonneg_right ?_ (ulp_pos y).le
      exact_mod_cast roundEven_mono (div_le_div_of_nonneg_right le (ulp_pos y).le)

end Double
