import Mathlib.Algebra.Order.Group.Nat

/-!
# Decimal digits

The digits of a number give the number back, so two numbers with the same digits are equal.
-/

namespace Decimal

/-- The number which digits stand for. -/
def value (digits : List Char) : Nat :=
  digits.foldl (fun value char => 10 * value + (char.toNat - 48)) 0

theorem value_concat (digits : List Char) (char : Char) :
    value (digits ++ [char]) = 10 * value digits + (char.toNat - 48) := by
  rw [value, List.foldl_append]
  rfl

theorem toNat_digitChar {digit : Nat} (small : digit < 10) :
    (Nat.digitChar digit).toNat - 48 = digit := by
  have all : ∀ digit < 10, (Nat.digitChar digit).toNat - 48 = digit := by decide
  exact all digit small

@[simp]
theorem value_toDigits (number : Nat) : value (Nat.toDigits 10 number) = number := by
  induction number using Nat.strong_induction_on with
  | _ number ih =>
      rw [Nat.toDigits_eq_if (by decide)]
      split_ifs with small
      · exact (value_concat [] _).trans ((Nat.zero_add _).trans (toNat_digitChar small))
      · rw [value_concat, ih _ (by omega), toNat_digitChar (Nat.mod_lt _ (by decide))]
        omega

end Decimal
