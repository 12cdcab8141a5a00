import Mathlib.Algebra.Order.Ring.Nat
import Mathlib.Data.Char
import Mathlib.Data.List.Lex

/-!
# Numbers in the order of texts

Texts are compared character by character. Numbers written with a fixed number of digits are in the
order of the texts, and so are texts which are put together of parts of fixed lengths.
-/

namespace TextOrder

/-- `padStart(width, fill)`. -/
def padStart (width : Nat) (fill : Char) (text : List Char) : List Char :=
  List.replicate (width - text.length) fill ++ text

/-- The last digits of a number. -/
def fixed : Nat → Nat → List Char
  | 0, _ => []
  | width + 1, n => fixed width (n / 10) ++ [Nat.digitChar (n % 10)]

theorem cons_le_cons_iff {c d : Char} {a b : List Char} :
    c :: a ≤ d :: b ↔ c < d ∨ c = d ∧ a ≤ b := by
  rw [le_iff_lt_or_eq, List.cons_lt_cons_iff, List.cons.injEq, le_iff_lt_or_eq, or_assoc,
    and_or_left]

/-- The first parts decide, the others where they are equal. -/
theorem append_le_append {a b x y : List Char} (lengths : a.length = b.length) (le : a ≤ b)
    (tie : a = b → x ≤ y) : a ++ x ≤ b ++ y := by
  induction a generalizing b with
  | nil =>
      rw [List.eq_nil_of_length_eq_zero lengths.symm] at tie ⊢
      exact tie rfl
  | cons c a ih =>
      cases b with
      | nil => cases lengths
      | cons d b =>
          rw [List.cons_append, List.cons_append, cons_le_cons_iff]
          rcases cons_le_cons_iff.mp le with less | ⟨rfl, rest⟩
          · exact .inl less
          · exact .inr ⟨rfl, ih (Nat.succ_inj.mp lengths) rest fun same => tie (same ▸ rfl)⟩

@[simp]
theorem length_fixed (width n : Nat) : (fixed width n).length = width := by
  induction width generalizing n with
  | zero => rfl
  | succ width ih => rw [fixed, List.length_append, ih, List.length_singleton]

theorem digitChar_mono {m n : Nat} (le : m ≤ n) (small : n < 10) :
    Nat.digitChar m ≤ Nat.digitChar n := by
  have all : ∀ n < 10, ∀ m ≤ n, Nat.digitChar m ≤ Nat.digitChar n := by decide
  exact all n small m le

theorem digitChar_inj {m n : Nat} (first : m < 10) (second : n < 10)
    (same : Nat.digitChar m = Nat.digitChar n) : m = n := by
  have all : ∀ m < 10, ∀ n < 10, Nat.digitChar m = Nat.digitChar n → m = n := by decide
  exact all m first n second same

theorem fixed_inj {width m n : Nat} (first : m < 10 ^ width) (second : n < 10 ^ width)
    (same : fixed width m = fixed width n) : m = n := by
  induction width generalizing m n with
  | zero => rw [Nat.lt_one_iff.mp first, Nat.lt_one_iff.mp second]
  | succ width ih =>
      rw [pow_succ] at first second
      obtain ⟨front, last⟩ := List.append_inj same (by rw [length_fixed, length_fixed])
      have tens := ih (Nat.div_lt_of_lt_mul (by omega)) (Nat.div_lt_of_lt_mul (by omega)) front
      have ones := digitChar_inj (Nat.mod_lt m (by decide)) (Nat.mod_lt n (by decide))
        (List.singleton_inj.mp last)
      omega

theorem fixed_mono {width m n : Nat} (le : m ≤ n) (small : n < 10 ^ width) :
    fixed width m ≤ fixed width n := by
  induction width generalizing m n with
  | zero => exact le_rfl
  | succ width ih =>
      rw [pow_succ] at small
      have tens : m / 10 ≤ n / 10 := Nat.div_le_div_right le
      have bound : n / 10 < 10 ^ width := Nat.div_lt_of_lt_mul (by omega)
      refine append_le_append (by rw [length_fixed, length_fixed]) (ih tens bound) fun same => ?_
      have equal := fixed_inj (tens.trans_lt bound) bound same
      refine cons_le_cons_iff.mpr ?_
      have ones := digitChar_mono (m := m % 10) (n := n % 10) (by omega) (by omega)
      exact ones.lt_or_eq.imp_right fun same => ⟨same, le_rfl⟩

theorem fixed_zero (width : Nat) : fixed width 0 = List.replicate width '0' := by
  induction width with
  | zero => rfl
  | succ width ih =>
      rw [fixed, ih, List.replicate_succ']
      rfl

/-- The decimal digits of a number, padded to some width. -/
theorem padStart_toDigits {width n : Nat} (small : n < 10 ^ (width + 1)) :
    padStart (width + 1) '0' (Nat.toDigits 10 n) = fixed (width + 1) n := by
  induction width generalizing n with
  | zero =>
      rw [zero_add, pow_one] at small
      rw [Nat.toDigits_of_lt_base small, fixed, Nat.mod_eq_of_lt small]
      rfl
  | succ width ih =>
      rw [pow_succ] at small
      rw [fixed, ← ih (Nat.div_lt_of_lt_mul (by omega)), Nat.toDigits_eq_if (by decide)]
      split_ifs with digit
      · rw [Nat.div_eq_of_lt digit, Nat.mod_eq_of_lt digit, ih (Nat.pow_pos (by decide)), fixed_zero]
        rfl
      · rw [padStart, padStart, List.length_append, List.length_singleton, Nat.add_sub_add_right,
          List.append_assoc]

end TextOrder
