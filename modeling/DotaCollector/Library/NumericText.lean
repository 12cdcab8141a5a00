import Mathlib.Data.List.DropRight
import DotaCollector.Library.Rounding

/-!
# The number which a text denotes

ECMAScript reads a text as a number: blanks around it do not count, an empty text is zero, and the
digits are decimal, with a sign, a point and an exponent, or in base 2, 8 or 16 behind `0b`, `0o` or
`0x`. The value is rounded to the nearest double. A text which denotes no number, or an infinite
one, gives nothing.
-/

namespace NumericText

/-- Blanks and line ends. -/
def isBlank (char : Char) : Bool :=
  char.val ∈
      [9, 10, 11, 12, 13, 32, 0xA0, 0x1680, 0x2028, 0x2029, 0x202F, 0x205F, 0x3000, 0xFEFF] ||
    (0x2000 ≤ char.val && char.val ≤ 0x200A)

/-- The value of a digit, in any base. -/
def digitValue (char : Char) : Option Nat :=
  if '0' ≤ char ∧ char ≤ '9' then some (char.toNat - '0'.toNat)
  else if 'a' ≤ char ∧ char ≤ 'f' then some (char.toNat - 'a'.toNat + 10)
  else if 'A' ≤ char ∧ char ≤ 'F' then some (char.toNat - 'A'.toNat + 10)
  else none

/-- The number which digits stand for, none of them too large for the base. -/
def natural (base : Nat) (digits : List Char) : Option Nat :=
  digits.foldlM
    (fun value char => ((digitValue char).filter (· < base)).map (base * value + ·)) 0

/-- At least one digit. -/
def natural₁ (base : Nat) (digits : List Char) : Option Nat :=
  if digits.isEmpty then none else natural base digits

/-- Behind an optional sign. -/
def signed {Number : Type*} [Neg Number] (read : List Char → Option Number) :
    List Char → Option Number
  | '-' :: rest => (read rest).map (- ·)
  | '+' :: rest => read rest
  | text => read text

/-- The exponent behind the letter, or none at all. -/
def exponent : List Char → Option Int
  | [] => some 0
  | _ :: text => signed (fun digits => (natural₁ 10 digits).map Int.ofNat) text

/-- Digits, perhaps with a point among them, and perhaps an exponent. -/
def unsignedDecimal (text : List Char) : Option ℚ := do
  let (mantissa, power) := text.span fun char => char ≠ 'e' && char ≠ 'E'
  let (whole, fraction) := mantissa.span (· ≠ '.')
  let digits ← natural₁ 10 (whole ++ fraction.tail)
  let shift ← exponent power
  return digits * (10 : ℚ) ^ (shift - fraction.tail.length)

/-- What a text without blanks around it denotes. -/
def literal : List Char → Option ℚ
  | [] => some 0
  | '0' :: 'x' :: digits | '0' :: 'X' :: digits => (natural₁ 16 digits).map (↑)
  | '0' :: 'o' :: digits | '0' :: 'O' :: digits => (natural₁ 8 digits).map (↑)
  | '0' :: 'b' :: digits | '0' :: 'B' :: digits => (natural₁ 2 digits).map (↑)
  | text => signed unsignedDecimal text

/-- The finite number which a text denotes. -/
def number (text : String) : Option ℚ :=
  (literal ((text.toList.dropWhile isBlank).rdropWhile isBlank)).bind Double.finite

example : number " 1.28e2 " = some 128 ∧ number "0x80" = some 128 ∧ number "-.5" = some (-1 / 2) ∧
    number "" = some 0 ∧ number "1e309" = none ∧ number "1_0" = none := by
  decide +kernel

end NumericText
