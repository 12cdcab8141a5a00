import Mathlib.Data.List.Basic
import DotaCollector.Library.Double
import DotaCollector.Library.WireIntegers

/-!
# The protobuf reader and writer

The game coordinator speaks protobuf; the collector brings a reader and a writer for the few
messages it needs. The reader walks one offset through the buffer. A number of the code is an
integer here, with `number` where the code turns a bigint into a double and machine words where
it shifts 32-bit integers.
-/

namespace DotaCollector
namespace Gc

open Double (number)

/-- A typed array of bytes; its length is an exact double. -/
structure Uint8Array where
  bytes : List UInt8
  length_lt : bytes.length < 2 ^ 53
  deriving DecidableEq, Repr

namespace Uint8Array

@[ext]
theorem ext {buf other : Uint8Array} (same : buf.bytes = other.bytes) : buf = other := by
  cases buf
  cases other
  cases same
  rfl

def length (buf : Uint8Array) : Nat := buf.bytes.length

/-- `slice` clamps both ends to the length of the array. -/
def slice (buf : Uint8Array) (start stop : Nat) : Uint8Array where
  bytes := (buf.bytes.drop start).take (stop - start)
  length_lt := by
    have := buf.length_lt
    rw [List.length_take, List.length_drop]
    omega

def at_ (buf : Uint8Array) (index : Nat) : UInt8 := buf.bytes.getD index 0

/-- The four bytes from an offset on as one word, least significant byte first. -/
def uint32 (buf : Uint8Array) (pos : Nat) : UInt32 :=
  (buf.at_ pos).toUInt32 ||| (buf.at_ (pos + 1)).toUInt32 <<< 8 |||
    (buf.at_ (pos + 2)).toUInt32 <<< 16 ||| (buf.at_ (pos + 3)).toUInt32 <<< 24

end Uint8Array

/-- The loop of `readVarint` over the bytes from `pos` on. -/
def readGroups : List UInt8 → Nat → Nat → Nat → Except String (Nat × Nat)
  | [], _, _, _ => throw "truncated varint"
  | b :: rest, pos, shift, result =>
      let result := result ||| (b &&& 0x7f).toNat <<< shift
      if b &&& 0x80 = 0 then return (result, pos + 1)
      else if 63 < shift + 7 then throw "varint too long"
      else readGroups rest (pos + 1) (shift + 7) result

/-- The value of a varint and the offset behind it. -/
def readVarint (buf : Uint8Array) (offset : Nat) : Except String (Nat × Nat) :=
  readGroups (buf.bytes.drop offset) offset 0 0

def writeVarint (value : Int) : List UInt8 :=
  if 0x80 ≤ value then
    (UInt8.ofInt (value % 0x80) ||| 0x80) :: writeVarint (value >>> (7 : Nat))
  else [UInt8.ofInt value]
termination_by value.toNat
decreasing_by
  rw [Int.shiftRight_eq_div_pow]
  omega

def skip (buf : Uint8Array) (offset wire : Nat) : Except String Nat :=
  match wire with
  | 0 => do
      let (_, next) ← readVarint buf offset
      return next
  | 1 => return offset + 8
  | 2 => do
      let (len, next) ← readVarint buf offset
      return number (next + number len)
  | 5 => return offset + 4
  | _ => throw s!"unsupported protobuf wire type {wire}"

structure ProtoField where
  field : Nat
  wire : Nat
  varint : Option Nat := none
  bytes : Option Uint8Array := none
  fixed32 : Option Nat := none
  fixed64 : Option Nat := none
  deriving DecidableEq, Repr

/-- One round of the loop of `decodeFields`: what is pushed, and the offset of the next round. -/
def decodeField (buf : Uint8Array) (pos : Nat) : Except String (Option ProtoField × Nat) := do
  let (tag, pos) ← readVarint buf pos
  let field := number (tag >>> 3)
  let wire := number (tag &&& 7)
  if wire = 0 then
    let (value, next) ← readVarint buf pos
    return (some { field, wire, varint := some value }, next)
  else if wire = 2 then
    let (len, start) ← readVarint buf pos
    let stop := number (start + number len)
    return (some { field, wire, bytes := some (buf.slice start stop) }, stop)
  else if wire = 5 then
    if buf.length < pos + 4 then throw "truncated fixed32"
    return (some { field, wire, fixed32 := some (buf.uint32 pos).toNat }, pos + 4)
  else if wire = 1 then
    if buf.length < pos + 8 then throw "truncated fixed64"
    let lo := (buf.uint32 pos).toNat
    let hi := (buf.uint32 (pos + 4)).toNat
    return (some { field, wire, fixed64 := some (lo + hi <<< 32) }, pos + 8)
  else
    return (none, ← skip buf pos wire)

/-! ### The varint reader -/

theorem payload_toNat (b : UInt8) : (b &&& 0x7f).toNat = b.toNat % 128 := by
  rw [UInt8.toNat_and]
  exact Nat.and_two_pow_sub_one_eq_mod b.toNat 7

theorem continuation_eq_zero_iff (b : UInt8) : b &&& 0x80 = 0 ↔ b.toNat < 128 := by
  have checked : ∀ n < 256, n &&& 128 = 0 ↔ n < 128 := by decide +kernel
  rw [← UInt8.toNat_inj, UInt8.toNat_and]
  exact checked b.toNat b.toNat_lt

/-- Groups are collected from the low end, so a new one does not meet the bits already there. -/
theorem or_shiftLeft {result shift : Nat} (below : result < 2 ^ shift) (group : Nat) :
    result ||| group <<< shift = result + 2 ^ shift * group := by
  rw [Nat.shiftLeft_eq, Nat.or_comm, Nat.mul_comm, ← Nat.two_pow_add_eq_or_of_lt below]
  omega

theorem add_group_lt {result shift group : Nat} (below : result < 2 ^ shift) (small : group < 128) :
    result + 2 ^ shift * group < 2 ^ (shift + 7) := by
  have product : 2 ^ shift * group ≤ 2 ^ shift * 127 := Nat.mul_le_mul_left _ (by omega)
  have power : 2 ^ (shift + 7) = 2 ^ shift * 128 := Nat.pow_add 2 shift 7
  omega

/-- The loop reads an encoding as long as the shift allows, on top of the groups it has. -/
theorem readGroups_ok_iff {rest : List UInt8} {pos shift result value next : Nat}
    (below : result < 2 ^ shift) :
    readGroups rest pos shift result = .ok (value, next) ↔
      ∃ bytes after high, rest = bytes ++ after ∧ Varint.Denotes bytes high ∧
        (bytes.length = 1 ∨ shift + 7 * (bytes.length - 1) ≤ 63) ∧
        value = result + 2 ^ shift * high ∧ next = pos + bytes.length := by
  induction rest generalizing pos shift result with
  | nil =>
      constructor
      · intro read
        cases read
      · rintro ⟨bytes, after, high, split, encoded, -⟩
        have := encoded.ne_nil
        simp_all
  | cons b rest ih =>
      have small : b.toNat % 128 < 128 := Nat.mod_lt _ (by decide)
      rw [readGroups, payload_toNat, or_shiftLeft below]
      rcases Nat.lt_or_ge b.toNat 128 with final | continued
      · have byte : b.toNat % 128 = b.toNat := Nat.mod_eq_of_lt final
        rw [if_pos ((continuation_eq_zero_iff b).mpr final), byte]
        constructor
        · intro read
          cases read
          exact ⟨[b], rest, _, rfl, .last b final, .inl rfl, rfl, rfl⟩
        · rintro ⟨bytes, after, high, split, encoded, -, rfl, rfl⟩
          have same : [b] ++ rest = bytes ++ after := split
          obtain ⟨rfl, rfl, -⟩ := (Varint.Denotes.last b final).append_inj encoded same
          rfl
      · rw [if_neg (mt (continuation_eq_zero_iff b).mp (by omega))]
        have value_eq (high : Nat) : result + 2 ^ shift * (b.toNat % 128 + 128 * high) =
            result + 2 ^ shift * (b.toNat % 128) + 2 ^ (shift + 7) * high := by
          rw [Nat.pow_add]
          ring
        constructor
        · intro read
          split_ifs at read with long
          · obtain ⟨bytes, after, high, rfl, encoded, room, rfl, rfl⟩ :=
              (ih (add_group_lt below small)).mp read
            have positive := encoded.length_pos
            refine ⟨b :: bytes, after, _, rfl, .more b continued encoded, .inr ?_,
              (value_eq high).symm, ?_⟩
            · rw [List.length_cons]
              omega
            · rw [List.length_cons]
              omega
        · rintro ⟨bytes, after, high, split, encoded, room, rfl, rfl⟩
          cases encoded with
          | last byte final =>
              obtain ⟨rfl, -⟩ := List.cons.inj split
              omega
          | more byte _ tail =>
              obtain ⟨rfl, rfl⟩ := List.cons.inj split
              have positive := tail.length_pos
              rw [List.length_cons] at room
              rw [if_neg (by omega)]
              refine (ih (add_group_lt below small)).mpr
                ⟨_, after, _, rfl, tail, by omega, value_eq _, ?_⟩
              rw [List.length_cons]
              omega

/-- The encodings which the reader takes have at most ten groups. -/
theorem readVarint_ok_iff {buf : Uint8Array} {offset value next : Nat} :
    readVarint buf offset = .ok (value, next) ↔
      ∃ bytes after, buf.bytes.drop offset = bytes ++ after ∧ Varint.Denotes bytes value ∧
        bytes.length ≤ 10 ∧ next = offset + bytes.length := by
  rw [readVarint, readGroups_ok_iff (by decide)]
  constructor
  · rintro ⟨bytes, after, high, split, encoded, room, rfl, rfl⟩
    refine ⟨bytes, after, split, ?_, by omega, rfl⟩
    simpa using encoded
  · rintro ⟨bytes, after, split, encoded, short, rfl⟩
    exact ⟨bytes, after, value, split, encoded, by omega, by simp, rfl⟩

theorem lt_of_readVarint {buf : Uint8Array} {offset value next : Nat}
    (read : readVarint buf offset = .ok (value, next)) : offset < next ∧ next ≤ buf.length := by
  obtain ⟨bytes, after, split, encoded, -, rfl⟩ := readVarint_ok_iff.mp read
  have positive := encoded.length_pos
  have total := congrArg List.length split
  rw [List.length_drop, List.length_append] at total
  rw [Uint8Array.length]
  omega

/-- A position past a length is past the start, rounding or not. -/
theorem lt_number_add {buf : Uint8Array} {pos start : Nat} (len : Nat) (before : pos < start)
    (inside : start ≤ buf.length) : pos < number (start + number len) := by
  have bound := buf.length_lt
  have rounded := Double.min_le_number (start + number len)
  rw [Uint8Array.length] at inside
  omega

/-! ### One field -/

theorem bind_eq_ok_iff {α β : Type} {first : Except String α} {rest : α → Except String β} {b : β} :
    (first >>= rest) = .ok b ↔ ∃ a, first = .ok a ∧ rest a = .ok b := by
  cases first with
  | error message =>
      constructor
      · intro failed
        cases failed
      · rintro ⟨a, failed, -⟩
        cases failed
  | ok a =>
      constructor
      · intro continued
        exact ⟨a, rfl, continued⟩
      · rintro ⟨a, same, continued⟩
        cases same
        exact continued

theorem map_eq_ok_iff {α β : Type} {f : α → β} {first : Except String α} {b : β} :
    f <$> first = .ok b ↔ ∃ a, first = .ok a ∧ f a = b := by
  cases first with
  | error message =>
      constructor
      · intro failed
        cases failed
      · rintro ⟨a, failed, -⟩
        cases failed
  | ok a =>
      constructor
      · intro mapped
        exact ⟨a, rfl, Except.ok.inj mapped⟩
      · rintro ⟨a, same, rfl⟩
        cases same
        rfl

theorem pure_eq_ok_iff {α : Type} {a b : α} : (pure a : Except String α) = .ok b ↔ b = a :=
  ⟨fun returned => (Except.ok.inj returned).symm, fun same => congrArg Except.ok same.symm⟩

theorem throw_eq_ok_iff {α : Type} {message : String} {b : α} :
    (throw message : Except String α) = .ok b ↔ False :=
  ⟨fun failed => (by cases failed), False.elim⟩

theorem wire_eq (tag : Nat) : number (tag &&& 7) = tag % 8 := by
  have low : tag &&& 7 = tag % 8 := Nat.and_two_pow_sub_one_eq_mod tag 3
  rw [low]
  exact Double.number_of_lt (by omega)

/-- `skip` knows the four wire types which `decodeFields` reads itself, and no other. -/
theorem skip_of_other (buf : Uint8Array) (pos : Nat) {wire : Nat}
    (other : wire ≠ 0 ∧ wire ≠ 1 ∧ wire ≠ 2 ∧ wire ≠ 5) :
    ∃ message, skip buf pos wire = .error message := by
  obtain ⟨not0, not1, not2, not5⟩ := other
  refine ⟨s!"unsupported protobuf wire type {wire}", ?_⟩
  rw [skip]
  · rfl
  all_goals assumption

/-- What a round of the loop does when it does not throw. -/
theorem decodeField_ok_iff {buf : Uint8Array} {pos next : Nat} {pushed : Option ProtoField} :
    decodeField buf pos = .ok (pushed, next) ↔
      ∃ tag start, readVarint buf pos = .ok (tag, start) ∧
        ((tag % 8 = 0 ∧ ∃ value, readVarint buf start = .ok (value, next) ∧
            pushed = some { field := number (tag >>> 3), wire := 0, varint := some value }) ∨
          (tag % 8 = 2 ∧ ∃ len body, readVarint buf start = .ok (len, body) ∧
            next = number (body + number len) ∧
            pushed = some { field := number (tag >>> 3), wire := 2,
                            bytes := some (buf.slice body next) }) ∨
          (tag % 8 = 5 ∧ start + 4 ≤ buf.length ∧ next = start + 4 ∧
            pushed = some { field := number (tag >>> 3), wire := 5,
                            fixed32 := some (buf.uint32 start).toNat }) ∨
          (tag % 8 = 1 ∧ start + 8 ≤ buf.length ∧ next = start + 8 ∧
            pushed = some { field := number (tag >>> 3), wire := 1,
                            fixed64 := some ((buf.uint32 start).toNat +
                              (buf.uint32 (start + 4)).toNat <<< 32) })) := by
  rw [decodeField, bind_eq_ok_iff, Prod.exists]
  refine exists_congr fun tag => exists_congr fun start => and_congr_right fun _ => ?_
  simp only [wire_eq]
  rcases (by omega : tag % 8 = 0 ∨ tag % 8 = 1 ∨ tag % 8 = 2 ∨ tag % 8 = 5 ∨
      (tag % 8 ≠ 0 ∧ tag % 8 ≠ 1 ∧ tag % 8 ≠ 2 ∧ tag % 8 ≠ 5)) with
    wire | wire | wire | wire | other
  · simp only [wire, ↓reduceIte, bind_pure_comp, map_eq_ok_iff, Prod.exists]
    grind
  · rcases Nat.lt_or_ge buf.length (start + 8) with truncated | whole
    · simp [wire, truncated, map_eq_ok_iff, throw_eq_ok_iff]
    · simp [wire, whole, Nat.not_lt.mpr whole, pure_eq_ok_iff, and_comm]
  · simp only [wire, bind_pure_comp, map_eq_ok_iff, Prod.exists, Prod.mk.injEq, if_false,
      OfNat.ofNat_ne_zero, if_true, true_and, false_and, or_false, false_or,
      show (2 : Nat) = 5 ↔ False by decide, show (2 : Nat) = 1 ↔ False by decide]
    constructor
    · rintro ⟨len, body, read, rfl, rfl⟩
      exact ⟨len, body, read, rfl, rfl⟩
    · rintro ⟨len, body, read, rfl, rfl⟩
      exact ⟨len, body, read, rfl, rfl⟩
  · rcases Nat.lt_or_ge buf.length (start + 4) with truncated | whole
    · simp [wire, truncated, map_eq_ok_iff, throw_eq_ok_iff]
    · simp [wire, whole, Nat.not_lt.mpr whole, pure_eq_ok_iff, and_comm]
  · have unknown : tag % 8 ≠ 0 ∧ tag % 8 ≠ 1 ∧ tag % 8 ≠ 2 ∧ tag % 8 ≠ 5 := by omega
    obtain ⟨message, skipped⟩ := skip_of_other buf start unknown
    simp [other, skipped]

theorem lt_of_decodeField {buf : Uint8Array} {pos next : Nat} {pushed : Option ProtoField}
    (decoded : decodeField buf pos = .ok (pushed, next)) : pos < next := by
  obtain ⟨tag, start, read, decoded⟩ := decodeField_ok_iff.mp decoded
  have tagged := lt_of_readVarint read
  rcases decoded with ⟨-, value, read, -⟩ | ⟨-, len, body, read, rfl, -⟩ | ⟨-, -, rfl, -⟩ |
    ⟨-, -, rfl, -⟩
  · have := lt_of_readVarint read
    omega
  · have body := lt_of_readVarint read
    exact lt_number_add len (by omega) body.2
  · omega
  · omega

/-! ### The loop -/

/-- The rounds of `decodeFields` from an offset on. -/
def decodeFrom (buf : Uint8Array) (pos : Nat) : Except String (List ProtoField) :=
  if pos < buf.length then
    match _decoded : decodeField buf pos with
    | .error message => .error message
    | .ok (pushed, next) => (decodeFrom buf next).map (pushed.toList ++ ·)
  else .ok []
termination_by buf.length - pos
decreasing_by
  have := lt_of_decodeField _decoded
  omega

def decodeFields (buf : Uint8Array) : Except String (List ProtoField) := decodeFrom buf 0

/-- The shift is one of 32-bit integers. -/
def encodeVarintField (field value : Int) : List UInt8 :=
  let tag := writeVarint (BitVec.ofInt 32 field <<< 3 ||| 0#32).toInt
  tag ++ writeVarint value

/-- `CMsgClientHello` with its version and engine. -/
def encodeClientHello : List UInt8 := encodeVarintField 1 1 ++ encodeVarintField 7 1

/-! ### Reading single values -/

def num : Option ProtoField → Option Nat
  | none => none
  | some field =>
      match field.varint, field.fixed32, field.fixed64 with
      | some varint, _, _ => some (number varint)
      | none, some fixed32, _ => some fixed32
      | none, none, some fixed64 => some (number fixed64)
      | none, none, none => none

/-- All fields of a number. -/
def all (fields : List ProtoField) (id : Nat) : List ProtoField :=
  fields.filter (·.field = id)

/-- The loop of `packedUint32` from an offset on. -/
def packedFrom (bytes : Uint8Array) (pos : Nat) : Except String (List Nat) :=
  if pos < bytes.length then
    match _read : readVarint bytes pos with
    | .error message => .error message
    | .ok (value, next) => (packedFrom bytes next).map (number value :: ·)
  else .ok []
termination_by bytes.length - pos
decreasing_by
  have := lt_of_readVarint _read
  omega

def packedUint32 : Option ProtoField → Except String (List Nat)
  | none => .ok []
  | some field =>
      match field.bytes with
      | none => .ok []
      | some bytes => packedFrom bytes 0

def repeatedUint32 (fields : List ProtoField) (id : Nat) : Except String (List Nat) :=
  let found := all fields id
  if found.length = 0 then .ok []
  else if found.length = 1 ∧ (found.head?.bind (·.bytes)).isSome then packedUint32 found.head?
  else .ok (found.flatMap fun field => (num (some field)).toList)

def repeatedInt32 (fields : List ProtoField) (id : Nat) : Except String (List Nat) :=
  repeatedUint32 fields id

end Gc
end DotaCollector
