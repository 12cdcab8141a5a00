import Mathlib.Data.List.Forall2
import Mathlib.Tactic.Ring

/-!
# Integers as byte strings

Two ways to write a natural number, least significant part first. A varint has groups of seven
bits, and every byte but the last has its top bit set. Leading zero groups are allowed, so a value
has many encodings, but no encoding starts another one: a string of encodings can be cut in one
way only. A little-endian word has a width known beforehand and eight bits in a byte.
-/

namespace Varint

/-- The byte string is one encoding of the value. -/
inductive Denotes : List UInt8 → Nat → Prop where
  | last (byte : UInt8) (final : byte.toNat < 128) : Denotes [byte] byte.toNat
  | more (byte : UInt8) (continued : 128 ≤ byte.toNat) {bytes : List UInt8} {value : Nat}
      (tail : Denotes bytes value) : Denotes (byte :: bytes) (byte.toNat % 128 + 128 * value)

theorem Denotes.ne_nil {bytes : List UInt8} {value : Nat} (encoded : Denotes bytes value) :
    bytes ≠ [] := by
  cases encoded <;> simp

theorem Denotes.length_pos {bytes : List UInt8} {value : Nat} (encoded : Denotes bytes value) :
    0 < bytes.length :=
  List.length_pos_iff.mpr encoded.ne_nil

theorem Denotes.value_lt {bytes : List UInt8} {value : Nat} (encoded : Denotes bytes value) :
    value < 128 ^ bytes.length := by
  induction encoded with
  | last byte final => simpa using final
  | more byte continued tail ih =>
      rename_i bytes value
      have low : byte.toNat % 128 < 128 := Nat.mod_lt _ (by decide)
      rw [List.length_cons, Nat.pow_succ]
      omega

/-- No encoding starts another one. -/
theorem Denotes.append_inj {bytes other rest after : List UInt8} {value number : Nat}
    (encoded : Denotes bytes value) (encoded' : Denotes other number)
    (same : bytes ++ rest = other ++ after) : bytes = other ∧ value = number ∧ rest = after := by
  induction encoded generalizing other number with
  | last byte final =>
      cases encoded' with
      | last byte' final' =>
          obtain ⟨rfl, rfl⟩ := List.cons.inj same
          exact ⟨rfl, rfl, rfl⟩
      | more byte' continued tail =>
          obtain ⟨rfl, -⟩ := List.cons.inj same
          omega
  | more byte continued tail ih =>
      cases encoded' with
      | last byte' final =>
          obtain ⟨rfl, -⟩ := List.cons.inj same
          omega
      | more byte' continued' tail' =>
          obtain ⟨rfl, remaining⟩ := List.cons.inj same
          obtain ⟨rfl, rfl, rfl⟩ := ih tail' remaining
          exact ⟨rfl, rfl, rfl⟩

/-- The shortest encoding of a value. -/
def groups (value : Nat) : List UInt8 :=
  if value < 128 then [UInt8.ofNat value]
  else UInt8.ofNat (value % 128 + 128) :: groups (value / 128)
termination_by value

theorem groups_of_lt {value : Nat} (small : value < 128) : groups value = [UInt8.ofNat value] := by
  rw [groups, if_pos small]

theorem groups_of_le {value : Nat} (large : 128 ≤ value) :
    groups value = UInt8.ofNat (value % 128 + 128) :: groups (value / 128) := by
  rw [groups, if_neg (by omega)]

theorem denotes_groups (value : Nat) : Denotes (groups value) value := by
  induction value using Nat.strongRecOn with
  | ind value ih =>
      rcases Nat.lt_or_ge value 128 with small | large
      · have byte : (UInt8.ofNat value).toNat = value :=
          UInt8.toNat_ofNat_of_lt' (by change value < 256; omega)
        rw [groups_of_lt small]
        simpa only [byte] using Denotes.last (UInt8.ofNat value) (by omega)
      · have byte : (UInt8.ofNat (value % 128 + 128)).toNat = value % 128 + 128 :=
          UInt8.toNat_ofNat_of_lt' (by change value % 128 + 128 < 256; omega)
        have split : (value % 128 + 128) % 128 + 128 * (value / 128) = value := by omega
        have denotes := Denotes.more (UInt8.ofNat (value % 128 + 128)) (by omega)
          (ih (value / 128) (by omega))
        rw [byte, split] at denotes
        rw [groups_of_le large]
        exact denotes

theorem length_groups_le {value width : Nat} (bounded : value < 128 ^ (width + 1)) :
    (groups value).length ≤ width + 1 := by
  induction width generalizing value with
  | zero =>
      rw [groups_of_lt (by simpa using bounded)]
      simp
  | succ width ih =>
      rcases Nat.lt_or_ge value 128 with small | large
      · rw [groups_of_lt small]
        simp
      · have quotient : value / 128 < 128 ^ (width + 1) := by
          rw [Nat.pow_succ] at bounded
          exact Nat.div_lt_of_lt_mul (by omega)
        rw [groups_of_le large, List.length_cons]
        have := ih quotient
        omega

end Varint

namespace LittleEndian

/-- The number which the bytes write. -/
def value : List UInt8 → Nat
  | [] => 0
  | byte :: bytes => byte.toNat + 256 * value bytes

/-- A number written with a given width. -/
def bytes : Nat → Nat → List UInt8
  | 0, _ => []
  | width + 1, number => UInt8.ofNat (number % 256) :: bytes width (number / 256)

@[simp]
theorem length_bytes (width number : Nat) : (bytes width number).length = width := by
  induction width generalizing number with
  | zero => rfl
  | succ width ih => rw [bytes, List.length_cons, ih]

theorem value_append (low high : List UInt8) :
    value (low ++ high) = value low + 256 ^ low.length * value high := by
  induction low with
  | nil => simp [value]
  | cons byte low ih =>
      rw [List.cons_append, value, ih, value, List.length_cons, Nat.pow_succ]
      ring

theorem value_lt (word : List UInt8) : value word < 256 ^ word.length := by
  induction word with
  | nil => simp [value]
  | cons byte word ih =>
      have low := byte.toNat_lt
      rw [value, List.length_cons, Nat.pow_succ]
      omega

theorem value_bytes {width number : Nat} (fits : number < 256 ^ width) :
    value (bytes width number) = number := by
  induction width generalizing number with
  | zero => simp_all [bytes, value]
  | succ width ih =>
      have quotient : number / 256 < 256 ^ width := by
        rw [Nat.pow_succ] at fits
        exact Nat.div_lt_of_lt_mul (by omega)
      have byte : (UInt8.ofNat (number % 256)).toNat = number % 256 :=
        UInt8.toNat_ofNat_of_lt' (Nat.mod_lt _ (by decide))
      rw [bytes, value, byte, ih quotient]
      omega

end LittleEndian
