import DotaCollector.Gc.WireFormat

/-!
# Encoding and decoding

A field is its number and a value of one of the four wire types. The reader gives back a list of
fields from the concatenation of their canonical encodings. The writer of the code writes varint
fields only and takes every integer; what it wrote comes back when the reader can hold the value,
which is when it is not negative and has at most ten groups.
-/

namespace DotaCollector
namespace Gc

open Double (number)

inductive WireValue where
  | varint (value : UInt64)
  | fixed64 (value : UInt64)
  | bytes (payload : Uint8Array)
  | fixed32 (value : UInt32)
  deriving DecidableEq, Repr

/-- A field number leaves room for the wire type in a 32-bit shift. -/
structure WireField where
  number : Nat
  value : WireValue
  positive : 1 ≤ number
  bounded : number < 2 ^ 28
  deriving DecidableEq, Repr

namespace WireField

def wire (field : WireField) : Nat :=
  match field.value with
  | .varint _ => 0
  | .fixed64 _ => 1
  | .bytes _ => 2
  | .fixed32 _ => 5

/-- What the reader makes of a field. -/
def toProtoField (field : WireField) : ProtoField :=
  match field.value with
  | .varint value => { field := field.number, wire := 0, varint := some value.toNat }
  | .fixed64 value => { field := field.number, wire := 1, fixed64 := some value.toNat }
  | .bytes payload => { field := field.number, wire := 2, bytes := some payload }
  | .fixed32 value => { field := field.number, wire := 5, fixed32 := some value.toNat }

def encodeValue : WireValue → List UInt8
  | .varint value => writeVarint value.toNat
  | .fixed64 value => LittleEndian.bytes 8 value.toNat
  | .bytes payload => writeVarint payload.length ++ payload.bytes
  | .fixed32 value => LittleEndian.bytes 4 value.toNat

/-- The canonical encoding: shortest varints for the tag, a value and a length. -/
def encode (field : WireField) : List UInt8 :=
  writeVarint (field.number * 8 + field.wire) ++ encodeValue field.value

end WireField

/-! ### The writer -/

theorem low_group (value : Nat) :
    UInt8.ofInt ((value : Int) % 0x80) ||| 0x80 = UInt8.ofNat (value % 128 + 128) := by
  have checked : ∀ group < 128, UInt8.ofInt (group : Nat) ||| 0x80 = UInt8.ofNat (group + 128) := by
    decide +kernel
  exact checked (value % 128) (Nat.mod_lt _ (by decide))

theorem writeVarint_ofNat (value : Nat) : writeVarint value = Varint.groups value := by
  induction value using Nat.strongRecOn with
  | ind value ih =>
      rw [writeVarint]
      rcases Nat.lt_or_ge value 128 with small | large
      · have byte : UInt8.ofInt (value : Int) = UInt8.ofNat value := by
          rw [UInt8.ofInt]
          congr 1
          omega
        rw [if_neg (by omega), Varint.groups_of_lt small, byte]
      · have shifted : (value : Int) >>> (7 : Nat) = (value / 128 : Nat) := by
          rw [Int.shiftRight_eq_div_pow]
          norm_num
        rw [if_pos (by omega), Varint.groups_of_le large, low_group, shifted,
          ih (value / 128) (by omega)]

theorem group_writeVarint {value : Nat} (fits : value < 2 ^ 70) :
    Group (writeVarint value) value := by
  have groups : value < 128 ^ (9 + 1) := by
    norm_num at fits ⊢
    exact fits
  rw [writeVarint_ofNat]
  exact ⟨Varint.denotes_groups value, Varint.length_groups_le groups⟩

/-- Below the limit the shift of the field number does not reach the sign bit. -/
theorem shifted_tag {field : Nat} (bounded : field < 2 ^ 28) :
    (BitVec.ofInt 32 (field : Int) <<< 3 ||| 0#32).toInt = (field * 8 : Nat) := by
  have word : (BitVec.ofNat 32 field <<< 3).toNat = field * 8 := by
    rw [BitVec.toNat_shiftLeft, BitVec.toNat_ofNat, Nat.shiftLeft_eq]
    omega
  rw [BitVec.ofInt_natCast, BitVec.or_zero, BitVec.toInt_eq_toNat_of_lt (by omega), word]

theorem number_of_tag {field wire : Nat} (bounded : field < 2 ^ 28) (small : wire < 8) :
    number ((field * 8 + wire) >>> 3) = field := by
  have shifted : (field * 8 + wire) >>> 3 = field := by
    rw [Nat.shiftRight_eq_div_pow]
    omega
  rw [shifted]
  exact Double.number_of_lt (by omega)

theorem group_of_tag {field wire : Nat} (bounded : field < 2 ^ 28) (small : wire < 8) :
    Group (writeVarint (field * 8 + wire : Nat)) (field * 8 + wire) :=
  group_writeVarint (by omega)

theorem WireField.encoded (field : WireField) : Encoded field.toProtoField field.encode := by
  obtain ⟨field, value, positive, bounded⟩ := field
  cases value with
  | varint value =>
      have tagged := group_of_tag bounded (show 0 < 8 by decide)
      have payload : Group (writeVarint value.toNat) value.toNat :=
        group_writeVarint (by have := value.toNat_lt; omega)
      have encoded := Encoded.varint tagged (by omega) payload
      rw [number_of_tag bounded (by decide)] at encoded
      exact encoded
  | fixed64 value =>
      have tagged := group_of_tag bounded (show 1 < 8 by decide)
      have fits : value.toNat < 256 ^ 8 := value.toNat_lt
      have encoded := Encoded.fixed64 tagged (by omega) (LittleEndian.length_bytes 8 value.toNat)
      rw [number_of_tag bounded (by decide), LittleEndian.value_bytes fits] at encoded
      exact encoded
  | bytes payload =>
      have tagged := group_of_tag bounded (show 2 < 8 by decide)
      have length : Group (writeVarint payload.length) payload.length :=
        group_writeVarint (by
          have := payload.length_lt
          rw [Uint8Array.length]
          omega)
      have encoded := Encoded.bytes payload tagged (by omega) length
      rw [number_of_tag bounded (by decide)] at encoded
      exact encoded
  | fixed32 value =>
      have tagged := group_of_tag bounded (show 5 < 8 by decide)
      have fits : value.toNat < 256 ^ 4 := value.toNat_lt
      have encoded := Encoded.fixed32 tagged (by omega) (LittleEndian.length_bytes 4 value.toNat)
      rw [number_of_tag bounded (by decide), LittleEndian.value_bytes fits] at encoded
      exact encoded

theorem message_encode (fields : List WireField) :
    Message (fields.map WireField.toProtoField) (fields.flatMap WireField.encode) := by
  induction fields with
  | nil => exact message_nil
  | cons field fields ih => exact Message.cons field.encoded ih

theorem decodeFields_of_written {fields : List WireField} {buf : Uint8Array}
    (written : buf.bytes = fields.flatMap WireField.encode) :
    decodeFields buf = .ok (fields.map WireField.toProtoField) := by
  apply decodeFields_of_message
  rw [written]
  exact message_encode fields

/-! ### Rows of varint fields -/

/-- What `encodeVarintField` writes for pairs of a field number and a value. -/
def encodeVarintFields (entries : List (Nat × Int)) : List UInt8 :=
  entries.flatMap fun entry => encodeVarintField entry.1 entry.2

/-- The decoded fields have the numbers and the values of the entries. -/
def GivenBack (entries : List (Nat × Int)) (decoded : List ProtoField) : Prop :=
  List.Forall₂ (fun entry field => field.wire = 0 ∧ field.field = entry.1 ∧
    ∃ value : Nat, field.varint = some value ∧ (value : Int) = entry.2) entries decoded

/-- The range of the values which come back. -/
def Readable (value : Int) : Prop := 0 ≤ value ∧ value < 2 ^ 70

instance (value : Int) : Decidable (Readable value) :=
  inferInstanceAs (Decidable (_ ∧ _))

theorem encoded_varintField {field value : Nat} (bounded : field < 2 ^ 28) (fits : value < 2 ^ 70) :
    Encoded { field, wire := 0, varint := some value } (encodeVarintField field value) := by
  have tagged := group_of_tag bounded (show 0 < 8 by decide)
  have encoded := Encoded.varint tagged (by omega) (group_writeVarint fits)
  rw [number_of_tag bounded (by decide), Nat.add_zero] at encoded
  rw [encodeVarintField, shifted_tag bounded]
  exact encoded

theorem message_varintFields {entries : List (Nat × Int)}
    (bounded : ∀ entry ∈ entries, entry.1 < 2 ^ 28)
    (readable : ∀ entry ∈ entries, Readable entry.2) :
    ∃ decoded, Message decoded (encodeVarintFields entries) ∧ GivenBack entries decoded := by
  induction entries with
  | nil => exact ⟨[], message_nil, .nil⟩
  | cons entry entries ih =>
      obtain ⟨decoded, message, given⟩ := ih (fun other found => bounded other (.tail _ found))
        (fun other found => readable other (.tail _ found))
      obtain ⟨field, value⟩ := entry
      obtain ⟨value, rfl⟩ := Int.eq_ofNat_of_zero_le (readable _ (.head _)).1
      have fits : value < 2 ^ 70 := by
        have := (readable _ (.head _)).2
        omega
      have encoded := encoded_varintField (bounded _ (.head _)) fits
      exact ⟨_, Message.cons encoded message, .cons ⟨rfl, rfl, value, rfl, rfl⟩ given⟩

/-- No decoded varint has more than seventy bits. -/
theorem varint_lt_of_decodeFields {buf : Uint8Array} {decoded : List ProtoField}
    (read : decodeFields buf = .ok decoded) :
    ∀ field ∈ decoded, ∀ value, field.varint = some value → value < 2 ^ 70 := by
  refine decodeFrom_induction (motive := fun _ fields => ∀ field ∈ fields, ∀ value,
    field.varint = some value → value < 2 ^ 70) ?_ ?_ read
  · intro pos _ field found
    cases found
  · intro pos first next rest _ decoded small field found value varint
    rcases List.mem_cons.mp found with rfl | later
    · exact varint_lt_of_decodeField decoded varint
    · exact small field later value varint

theorem readable_of_givenBack {entries : List (Nat × Int)} {decoded : List ProtoField}
    (given : GivenBack entries decoded)
    (small : ∀ field ∈ decoded, ∀ value, field.varint = some value → value < 2 ^ 70) :
    ∀ entry ∈ entries, Readable entry.2 := by
  induction given with
  | nil => simp
  | cons first given ih =>
      rename_i entry field entries decoded
      obtain ⟨-, -, value, found, same⟩ := first
      have bound := small field (.head _) value found
      intro other member
      rcases List.mem_cons.mp member with rfl | later
      · exact ⟨by omega, by omega⟩
      · exact ih (fun field member => small field (.tail _ member)) other later

theorem decodeFields_encode :
    (∀ (fields : List WireField) (buf : Uint8Array),
      buf.bytes = fields.flatMap WireField.encode →
        decodeFields buf = .ok (fields.map WireField.toProtoField)) ∧
    ∀ (entries : List (Nat × Int)) (buf : Uint8Array),
      (∀ entry ∈ entries, 1 ≤ entry.1 ∧ entry.1 < 2 ^ 28) →
      buf.bytes = encodeVarintFields entries →
        ((∃ decoded, decodeFields buf = .ok decoded ∧ GivenBack entries decoded) ↔
          ∀ entry ∈ entries, Readable entry.2) := by
  constructor
  · intro fields buf written
    exact decodeFields_of_written written
  · intro entries buf bounded written
    constructor
    · rintro ⟨decoded, read, given⟩
      exact readable_of_givenBack given (varint_lt_of_decodeFields read)
    · intro readable
      obtain ⟨decoded, message, given⟩ := message_varintFields
        (fun entry found => (bounded entry found).2) readable
      rw [← written] at message
      exact ⟨decoded, decodeFields_of_message message, given⟩

/-- The greeting and a field of each wire type come back. -/
theorem decodeFields_encode_clientHello :
    (∃ buf : Uint8Array, buf.bytes = encodeClientHello ∧
      ∃ decoded, decodeFields buf = .ok decoded ∧ GivenBack [(1, 1), (7, 1)] decoded) ∧
    ∃ (fields : List WireField) (buf : Uint8Array), fields.map WireField.wire = [0, 1, 2, 5] ∧
      decodeFields buf = .ok (fields.map WireField.toProtoField) := by
  constructor
  · let buf : Uint8Array := ⟨encodeVarintFields [(1, 1), (7, 1)], by decide +kernel⟩
    have given := (decodeFields_encode.2 [(1, 1), (7, 1)] buf (by decide) rfl).mpr (by decide)
    exact ⟨buf, by decide +kernel, given⟩
  · let fields : List WireField :=
      [⟨1, .varint 300, by decide, by decide⟩, ⟨2, .fixed64 7, by decide, by decide⟩,
        ⟨3, .bytes ⟨[79, 71], by decide⟩, by decide, by decide⟩,
        ⟨2 ^ 28 - 1, .fixed32 1509767537, by decide, by decide⟩]
    let buf : Uint8Array := ⟨fields.flatMap WireField.encode, by decide +kernel⟩
    exact ⟨fields, buf, rfl, decodeFields_encode.1 fields buf rfl⟩

/-- The writer takes a negative value and writes one byte for it, which the reader refuses. -/
theorem encodeVarintField_negative : ∃ buf : Uint8Array,
    buf.bytes = encodeVarintFields [(1, -1)] ∧ decodeFields buf = .error "truncated varint" := by
  refine ⟨⟨encodeVarintFields [(1, -1)], by decide +kernel⟩, rfl, ?_⟩
  decide +kernel

end Gc
end DotaCollector
