import Mathlib.Data.List.Infix

/-!
# Names of units and entity classes

The parser compares names in lower case. A name is read as the list of its characters.
-/

namespace DotaCollector
namespace Parse

abbrev Name := List Char

/-- `unicode.ToLower`, as far as a search for ASCII text can tell: beyond ASCII, only the Kelvin sign
and the dotted capital I have a lower case in ASCII. -/
def lowerChar (c : Char) : Char :=
  if c.toNat = 0x212a then 'k' else if c.toNat = 0x130 then 'i' else c.toLower

def toLower (name : Name) : Name := name.map lowerChar

def contains (name : Name) (text : String) : Bool := decide (text.toList <:+: name)

/-- What each character of a name is found to be. -/
theorem forall_of_all {P : Char → Prop} [DecidablePred P] {name : Name}
    (all : (name.all fun c => decide (P c)) = true) : ∀ c ∈ name, P c :=
  fun c member => of_decide_eq_true (List.all_eq_true.mp all c member)

/-! ## ASCII letters -/

/-- What holds of each of the 128 ASCII characters. -/
theorem of_ascii {P : Char → Prop} (all : ∀ n < 128, P (Char.ofNat n)) {c : Char}
    (ascii : c.toNat < 128) : P c := by
  have whole := all c.toNat ascii
  rwa [Char.ofNat_toNat] at whole

theorem isUpper_iff {c : Char} : c.isUpper = true ↔ 65 ≤ c.toNat ∧ c.toNat ≤ 90 := by
  change decide (c.val ≥ 65 ∧ c.val ≤ 90) = true ↔ _
  rw [decide_eq_true_eq, ge_iff_le, UInt32.le_iff_toNat_le, UInt32.le_iff_toNat_le]
  exact Iff.rfl

theorem isLower_iff {c : Char} : c.isLower = true ↔ 97 ≤ c.toNat ∧ c.toNat ≤ 122 := by
  change (decide (c.val ≥ 97) && decide (c.val ≤ 122)) = true ↔ _
  rw [Bool.and_eq_true, decide_eq_true_eq, decide_eq_true_eq, ge_iff_le, UInt32.le_iff_toNat_le,
    UInt32.le_iff_toNat_le]
  exact Iff.rfl

theorem isDigit_iff {c : Char} : c.isDigit = true ↔ 48 ≤ c.toNat ∧ c.toNat ≤ 57 := by
  change (decide (c.val ≥ 48) && decide (c.val ≤ 57)) = true ↔ _
  rw [Bool.and_eq_true, decide_eq_true_eq, decide_eq_true_eq, ge_iff_le, UInt32.le_iff_toNat_le,
    UInt32.le_iff_toNat_le]
  exact Iff.rfl

theorem isAlphanum_iff {c : Char} :
    c.isAlphanum = true ↔ c.isUpper = true ∨ c.isLower = true ∨ c.isDigit = true := by
  change ((c.isUpper || c.isLower) || c.isDigit) = true ↔ _
  rw [Bool.or_eq_true, Bool.or_eq_true, or_assoc]

theorem ascii_of_isAlphanum {c : Char} (alphanum : c.isAlphanum = true) : c.toNat < 128 := by
  rw [isAlphanum_iff, isUpper_iff, isLower_iff, isDigit_iff] at alphanum
  omega

/-- What lowering a capital letter gives. -/
structure Lowers (c : Char) : Prop where
  isLower : (lowerChar c).isLower = true
  capital : lowerChar c = 'i' → c = 'I'

theorem lowers_of_isUpper {c : Char} (upper : c.isUpper = true) : Lowers c := by
  have ascii : c.toNat < 128 := ascii_of_isAlphanum (isAlphanum_iff.mpr (.inl upper))
  obtain ⟨isLower, capital⟩ := of_ascii (P := fun c => c.isUpper = true →
    (lowerChar c).isLower = true ∧ (lowerChar c = 'i' → c = 'I')) (by decide) ascii upper
  exact ⟨isLower, capital⟩

/-- A small letter, a digit or an underscore. -/
def Plain (c : Char) : Prop := c.isLower = true ∨ c.isDigit = true ∨ c = '_'

theorem Plain.ascii {c : Char} (plain : Plain c) : c.toNat < 128 := by
  rcases plain with lower | digit | rfl
  · exact ascii_of_isAlphanum (isAlphanum_iff.mpr (.inr (.inl lower)))
  · exact ascii_of_isAlphanum (isAlphanum_iff.mpr (.inr (.inr digit)))
  · decide

instance (c : Char) : Decidable (Plain c) := inferInstanceAs (Decidable (_ ∨ _ ∨ _))

theorem Plain.lowerChar_eq {c : Char} (plain : Plain c) : lowerChar c = c :=
  of_ascii (P := fun c => Plain c → lowerChar c = c) (by decide) plain.ascii plain

/-- A letter, a digit or an underscore. -/
def Legal (c : Char) : Prop := c.isAlphanum = true ∨ c = '_'

instance (c : Char) : Decidable (Legal c) := inferInstanceAs (Decidable (_ ∨ _))

theorem Legal.upper_or_plain {c : Char} (legal : Legal c) : c.isUpper = true ∨ Plain c := by
  rcases legal with alphanum | rfl
  · rcases isAlphanum_iff.mp alphanum with upper | lower | digit
    · exact .inl upper
    · exact .inr (.inl lower)
    · exact .inr (.inr (.inl digit))
  · exact .inr (.inr (.inr rfl))

theorem Legal.plain_lowerChar {c : Char} (legal : Legal c) : Plain (lowerChar c) := by
  rcases legal.upper_or_plain with upper | plain
  · exact .inl (lowers_of_isUpper upper).isLower
  · rwa [plain.lowerChar_eq]

end Parse
end DotaCollector
