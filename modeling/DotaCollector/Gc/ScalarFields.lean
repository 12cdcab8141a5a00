import DotaCollector.Gc.MatchDecoder
import DotaCollector.Gc.RoundTrip
import DotaCollector.Gc.Repeated
import DotaCollector.Persist.Players

/-!
# Scalars in a decoded match

An integer stands in a message as a varint, or as a word of 32 or 64 bits. The decoder turns the
varint or the word into a double and never back into a signed integer. So a negative `int32` comes
out as a large positive number, also for `asItemId`, which takes negative ids for empty; and a
64-bit value with more than 53 significant bits comes out as the double next to it.
-/

namespace DotaCollector
namespace Gc

open Double (number)
open Persist (asItemId)

/-- An integer written as a varint. One of `uint32` has the varint it has as a `uint64`. -/
inductive VarintScalar where
  | int32 (value : Int32)
  | uint64 (value : UInt64)
  deriving DecidableEq

def VarintScalar.code : VarintScalar → Nat
  | .int32 value => int32Code value
  | .uint64 value => value.toNat

inductive Scalar where
  | varint (scalar : VarintScalar)
  | fixed64 (value : UInt64)
  | fixed32 (value : UInt32)
  deriving DecidableEq

namespace Scalar

/-- The encoded number. -/
def value : Scalar → Int
  | .varint (.int32 value) => value.toInt
  | .varint (.uint64 value) => value.toNat
  | .fixed64 value => value.toNat
  | .fixed32 value => value.toNat

def wireValue : Scalar → WireValue
  | .varint scalar => .varint (UInt64.ofNat scalar.code)
  | .fixed64 value => .fixed64 value
  | .fixed32 value => .fixed32 value

/-- What `num` makes of it. -/
def decoded : Scalar → Nat
  | .varint scalar => number scalar.code
  | .fixed64 value => number value.toNat
  | .fixed32 value => value.toNat

/-- At most 53 significant bits. -/
def Fits (value : UInt64) : Prop := value.toNat % 2 ^ (value.toNat.log2 - 52) = 0

/-- The scalars which are decoded as they are. -/
def Exact : Scalar → Prop
  | .varint (.int32 value) => 0 ≤ value.toInt
  | .varint (.uint64 value) => Fits value
  | .fixed64 value => Fits value
  | .fixed32 _ => True

instance (value : UInt64) : Decidable (Fits value) :=
  inferInstanceAs (Decidable (_ = _))

instance : (scalar : Scalar) → Decidable scalar.Exact
  | .varint (.int32 value) => inferInstanceAs (Decidable (0 ≤ value.toInt))
  | .varint (.uint64 value) => inferInstanceAs (Decidable (Fits value))
  | .fixed64 value => inferInstanceAs (Decidable (Fits value))
  | .fixed32 _ => .isTrue trivial

theorem decoded_eq_value_iff (scalar : Scalar) :
    (scalar.decoded : Int) = scalar.value ↔ scalar.Exact := by
  have wide (value : UInt64) : (number value.toNat : Int) = value.toNat ↔ Fits value := by
    rw [Fits, ← Double.number_eq_self_iff]
    exact Int.natCast_inj
  match scalar with
  | .varint (.int32 value) =>
      constructor
      · intro same
        have read : (number (int32Code value) : Int) = value.toInt := same
        have unsigned : 0 ≤ value.toInt := by omega
        exact unsigned
      · intro positive
        exact number_int32Code positive
  | .varint (.uint64 value) => exact wide value
  | .fixed64 value => exact wide value
  | .fixed32 value => exact ⟨fun _ => trivial, fun _ => rfl⟩

/-- The sign extension of a negative number is beyond every exact double. -/
theorem le_decoded_of_negative {scalar : Scalar} (negative : scalar.value < 0) :
    2 ^ 53 ≤ scalar.decoded := by
  match scalar, negative with
  | .varint (.int32 value), negative =>
      have below : value.toInt < 0 := negative
      have bound := value.le_toInt
      apply Double.le_number
      rw [VarintScalar.code, int32Code]
      omega
  | .varint (.uint64 value), negative =>
      have below : (value.toNat : Int) < 0 := negative
      omega
  | .fixed64 value, negative =>
      have below : (value.toNat : Int) < 0 := negative
      omega
  | .fixed32 value, negative =>
      have below : (value.toNat : Int) < 0 := negative
      omega

/-- No other number has the item id of a scalar which is decoded as it is. -/
theorem asItemId_decoded_iff (scalar : Scalar) :
    asItemId (some (.int scalar.decoded)) = asItemId (some (.int scalar.value)) ↔
      scalar.Exact := by
  rw [← decoded_eq_value_iff]
  simp only [asItemId, Option.some.injEq, Value.int.injEq]
  rw [if_neg (by omega)]
  split_ifs with negative
  · have large := le_decoded_of_negative negative
    omega
  · exact Iff.rfl

end Scalar

/-! ### Messages and records -/

/-- Where a number stands: under a key, in an array of numbers, or in an item of an array. -/
inductive Path where
  | key (key : String)
  | element (key : String) (index : Nat)
  | within (key : String) (index : Nat) (rest : Path)
  deriving DecidableEq

def numberAt : Path → GcRecord → Option Nat
  | .key key, record =>
      match record.lookup key with
      | some (.number value) => some value
      | _ => none
  | .element key index, record =>
      match record.lookup key with
      | some (.numbers values) => values[index]?
      | _ => none
  | .within key index rest, record =>
      match record.lookup key with
      | some (.records items) => items[index]?.bind (numberAt rest)
      | _ => none

/-- The chunks of a repeated field are rows of varints. -/
def RowsOfVarints (message : List WireField) (id : Nat) : Prop :=
  ∀ chunk ∈ chunks (message.map WireField.toProtoField) id, ∃ values, Packed chunk.bytes values

def Reader.Typed (message : List WireField) : Reader → Prop
  | .repeated id => RowsOfVarints message id
  | .element id _ => RowsOfVarints message id
  | _ => True

/-- The byte fields of the message hold what its type says: rows of varints, and messages. -/
def Decoder.Typed : Decoder → List WireField → Prop
  | .done, _ => True
  | .field _ reader rest, message => reader.Typed message ∧ rest.Typed message
  | .records _ id item rest, message =>
      (∀ chunk ∈ chunks (message.map WireField.toProtoField) id, ∃ inner,
        chunk.bytes = inner.flatMap WireField.encode ∧ item.Typed inner) ∧ rest.Typed message

/-- The field whose number is read alone. -/
def Reader.single : Reader → Option Nat
  | .num id => some id
  | .numOr id _ => some id
  | _ => none

/-- The elements of a repeated field, as one writer leaves them: in one record, or without
chunks. -/
def Repeats (message : List WireField) (id : Nat) (elements : List VarintScalar) : Prop :=
  ∃ split, List.Forall₂ (Carries VarintScalar.code)
      (all (message.map WireField.toProtoField) id) split ∧
    Together (all (message.map WireField.toProtoField) id) ∧ elements = split.flatten

/-- The message has the scalar where the record of the decoder has the path. -/
inductive Sends : Decoder → List WireField → Path → Scalar → Prop where
  | single {decoder : Decoder} {message : List WireField} {key : String} {reader : Reader}
      {id : Nat} {field : WireField} {scalar : Scalar}
      (reads : decoder.entry key = some (.field reader)) (alone : reader.single = some id)
      (found : message.find? (·.number = id) = some field)
      (carries : field.value = scalar.wireValue) : Sends decoder message (.key key) scalar
  | repeated {decoder : Decoder} {message : List WireField} {key : String} {id index : Nat}
      {elements : List VarintScalar} {scalar : VarintScalar}
      (reads : decoder.entry key = some (.field (.repeated id)))
      (repeats : Repeats message id elements) (found : elements[index]? = some scalar) :
      Sends decoder message (.element key index) (.varint scalar)
  | element {decoder : Decoder} {message : List WireField} {key : String} {id index : Nat}
      {elements : List VarintScalar} {scalar : VarintScalar}
      (reads : decoder.entry key = some (.field (.element id index)))
      (repeats : Repeats message id elements) (found : elements[index]? = some scalar) :
      Sends decoder message (.key key) (.varint scalar)
  | within {decoder item : Decoder} {message inner : List WireField} {key : String}
      {id index : Nat} {chunk : Uint8Array} {path : Path} {scalar : Scalar}
      (reads : decoder.entry key = some (.records id item))
      (found : (chunks (message.map WireField.toProtoField) id)[index]? = some chunk)
      (written : chunk.bytes = inner.flatMap WireField.encode)
      (sends : Sends item inner path scalar) : Sends decoder message (.within key index path) scalar

/-! ### A typed message is decoded -/

theorem repeatedUint32_of_rows {fields : List ProtoField} {id : Nat}
    (rows : ∀ chunk ∈ chunks fields id, ∃ values, Packed chunk.bytes values) :
    ∃ values, repeatedUint32 fields id = .ok values := by
  by_cases alone : (all fields id).length = 1
  · obtain ⟨record, found⟩ := List.length_eq_one_iff.mp alone
    cases packed : record.bytes with
    | none =>
        rw [repeatedUint32, found]
        simp [packed]
    | some chunk =>
        have member : chunk ∈ chunks fields id := by
          rw [chunks, found]
          simp [packed]
        obtain ⟨values, row⟩ := rows chunk member
        have whole : packedFrom chunk 0 = _ := packedFrom_of_packed row
        rw [repeatedUint32, found]
        simp [packed, packedUint32, whole]
  · exact ⟨_, repeatedUint32_of_many alone⟩

theorem Reader.read_of_typed {reader : Reader} {message : List WireField}
    (typed : reader.Typed message) :
    ∃ value, reader.read (message.map WireField.toProtoField) = .ok value := by
  cases reader with
  | repeated id =>
      obtain ⟨values, read⟩ := repeatedUint32_of_rows typed
      exact ⟨.numbers values, by rw [Reader.read, read]; rfl⟩
  | element id index =>
      obtain ⟨values, read⟩ := repeatedUint32_of_rows typed
      exact ⟨_, by rw [Reader.read, read]; rfl⟩
  | num id => exact ⟨_, rfl⟩
  | numOr id default => exact ⟨_, rfl⟩
  | str id => exact ⟨_, rfl⟩
  | float32 id => exact ⟨_, rfl⟩
  | bool id => exact ⟨_, rfl⟩
  | boolOr id default => exact ⟨_, rfl⟩

theorem Decoder.read_of_typed {decoder : Decoder} {message : List WireField}
    (typed : decoder.Typed message) :
    ∃ record, decoder.read (message.map WireField.toProtoField) = .ok record := by
  induction decoder generalizing message with
  | done => exact ⟨[], rfl⟩
  | field key reader rest ih =>
      obtain ⟨value, first⟩ := reader.read_of_typed typed.1
      obtain ⟨record, second⟩ := ih typed.2
      refine ⟨(key, value) :: record, ?_⟩
      simp only [Decoder.read, bind_eq_ok_iff, pure_eq_ok_iff]
      exact ⟨value, first, record, second, rfl⟩
  | records key id item rest inside ih =>
      have each : ∀ chunk ∈ chunks (message.map WireField.toProtoField) id,
          ∃ record, item.run chunk = .ok record := by
        intro chunk member
        obtain ⟨inner, written, typed⟩ := typed.1 chunk member
        obtain ⟨record, read⟩ := inside typed
        exact ⟨record, bind_eq_ok_iff.mpr ⟨_, decodeFields_of_written written, read⟩⟩
      obtain ⟨items, first⟩ := mapM_ok_of_forall each
      obtain ⟨record, second⟩ := ih typed.2
      refine ⟨(key, .records items) :: record, ?_⟩
      simp only [Decoder.read, bind_eq_ok_iff, pure_eq_ok_iff]
      exact ⟨items, first, record, second, rfl⟩

/-! ### A scalar comes out as its double -/

theorem code_lt (scalar : VarintScalar) : scalar.code < 2 ^ 64 := by
  cases scalar with
  | int32 value =>
      have positive := Int.emod_nonneg value.toInt (show (2 : Int) ^ 64 ≠ 0 by decide)
      have below := Int.emod_lt_of_pos value.toInt (show (0 : Int) < 2 ^ 64 by decide)
      rw [VarintScalar.code, int32Code]
      omega
  | uint64 value => exact value.toNat_lt

theorem num_toProtoField {field : WireField} {scalar : Scalar}
    (carries : field.value = scalar.wireValue) :
    num (some field.toProtoField) = some scalar.decoded := by
  cases scalar with
  | varint scalar =>
      have code : (UInt64.ofNat scalar.code).toNat = scalar.code :=
        UInt64.toNat_ofNat_of_lt' (code_lt scalar)
      have given : num (some field.toProtoField) =
          some (number (UInt64.ofNat scalar.code).toNat) := by
        rw [WireField.toProtoField, carries]
        rfl
      rw [given, code]
      rfl
  | fixed64 value =>
      rw [WireField.toProtoField, carries]
      rfl
  | fixed32 value =>
      rw [WireField.toProtoField, carries]
      rfl

theorem first_toProtoField {message : List WireField} {id : Nat} {field : WireField}
    (found : message.find? (·.number = id) = some field) :
    first (message.map WireField.toProtoField) id = some field.toProtoField := by
  have number_eq (field : WireField) : field.toProtoField.field = field.number := by
    obtain ⟨number, value, positive, bounded⟩ := field
    cases value <;> rfl
  rw [first, List.find?_map]
  simp only [Function.comp_def, number_eq, found, Option.map_some]

theorem Reader.read_single {reader : Reader} {message : List WireField} {id : Nat}
    {field : WireField} {scalar : Scalar} (alone : reader.single = some id)
    (found : message.find? (·.number = id) = some field)
    (carries : field.value = scalar.wireValue) :
    reader.read (message.map WireField.toProtoField) = .ok (.number scalar.decoded) := by
  cases reader with
  | num id' =>
      cases alone
      rw [Reader.read, first_toProtoField found, num_toProtoField carries]
      rfl
  | numOr id' default =>
      cases alone
      rw [Reader.read, first_toProtoField found, num_toProtoField carries]
      rfl
  | str id' => cases alone
  | float32 id' => cases alone
  | bool id' => cases alone
  | boolOr id' default => cases alone
  | repeated id' => cases alone
  | element id' index => cases alone

theorem Repeats.read {message : List WireField} {id : Nat} {elements : List VarintScalar}
    (repeats : Repeats message id elements) :
    repeatedUint32 (message.map WireField.toProtoField) id =
      .ok (elements.map fun scalar => (Scalar.varint scalar).decoded) := by
  obtain ⟨split, carries, together, rfl⟩ := repeats
  exact repeatedUint32_of_together carries together

/-- The number under a path is the decoded scalar: by the step of the path at each level. -/
theorem Sends.numberAt_eq {decoder : Decoder} {message : List WireField} {path : Path}
    {scalar : Scalar} (sends : Sends decoder message path scalar) {record : GcRecord}
    (read : decoder.read (message.map WireField.toProtoField) = .ok record) :
    numberAt path record = some scalar.decoded := by
  induction sends generalizing record with
  | single reads alone found carries =>
      obtain ⟨value, first, inside⟩ := Decoder.lookup_read read reads
      rw [Entry.read, Reader.read_single alone found carries] at first
      cases first
      rw [numberAt, inside]
  | repeated reads repeats found =>
      obtain ⟨value, first, inside⟩ := Decoder.lookup_read read reads
      rw [Entry.read, Reader.read, repeats.read] at first
      cases first
      rw [numberAt, inside]
      simp [found]
  | element reads repeats found =>
      obtain ⟨value, first, inside⟩ := Decoder.lookup_read read reads
      rw [Entry.read, Reader.read, repeats.read] at first
      cases first
      rw [numberAt, inside]
      simp [found]
  | within reads found written sends ih =>
      obtain ⟨value, first, inside⟩ := Decoder.lookup_read read reads
      obtain ⟨items, mapped, rfl⟩ := map_eq_ok_iff.mp first
      obtain ⟨item, decoded, place⟩ := getElem?_mapM_ok mapped found
      obtain ⟨fields, split, read⟩ := bind_eq_ok_iff.mp decoded
      rw [decodeFields_of_written written] at split
      cases split
      rw [numberAt, inside]
      simp only [place, Option.bind_some]
      exact ih read

theorem repeatedUint32_of_entry {decoder : Decoder} {fields : List ProtoField} {record : GcRecord}
    {key : String} {id : Nat} (read : decoder.read fields = .ok record)
    (entry : decoder.entry key = some (.field (.repeated id))) :
    ∃ values, repeatedUint32 fields id = .ok values := by
  obtain ⟨value, first, -⟩ := Decoder.lookup_read read entry
  obtain ⟨values, read, -⟩ := map_eq_ok_iff.mp first
  exact ⟨values, read⟩

/-- The two arrays which are read first are also in the table. -/
theorem decodeGcMatch_ok_iff {bytes : Uint8Array} {fields : List ProtoField}
    (split : decodeFields bytes = .ok fields) {record : GcRecord} :
    decodeGcMatch bytes = .ok record ↔ gcMatch.read fields = .ok record := by
  rw [decodeGcMatch, bind_eq_ok_iff]
  constructor
  · rintro ⟨fields', split', decoded⟩
    rw [split] at split'
    cases split'
    obtain ⟨towers, -, decoded⟩ := bind_eq_ok_iff.mp decoded
    obtain ⟨barracks, -, decoded⟩ := bind_eq_ok_iff.mp decoded
    exact decoded
  · intro read
    have towers : gcMatch.entry "tower_status" = some (.field (.repeated 8)) := by
      simp [gcMatch, Decoder.entry]
    have barracks : gcMatch.entry "barracks_status" = some (.field (.repeated 9)) := by
      simp [gcMatch, Decoder.entry]
    obtain ⟨towers, first⟩ := repeatedUint32_of_entry read towers
    obtain ⟨barracks, second⟩ := repeatedUint32_of_entry read barracks
    refine ⟨fields, split, ?_⟩
    exact bind_eq_ok_iff.mpr ⟨towers, first, bind_eq_ok_iff.mpr ⟨barracks, second, read⟩⟩

/-- A match of the right shape is decoded, and then each of its scalars comes out as it was sent,
and gives the item id it should give, in exactly these cases. -/
theorem scalars_survive_iff (message : List WireField) (bytes : Uint8Array)
    (written : bytes.bytes = message.flatMap WireField.encode) :
    (gcMatch.Typed message → ∃ record, decodeGcMatch bytes = .ok record) ∧
    ∀ record, decodeGcMatch bytes = .ok record → ∀ path scalar, Sends gcMatch message path scalar →
      ∃ value, numberAt path record = some value ∧ ((value : Int) = scalar.value ↔ scalar.Exact) ∧
        (asItemId (some (.int value)) = asItemId (some (.int scalar.value)) ↔ scalar.Exact) := by
  have split := decodeFields_of_written written
  constructor
  · intro typed
    obtain ⟨record, read⟩ := Decoder.read_of_typed typed
    exact ⟨record, (decodeGcMatch_ok_iff split).mpr read⟩
  · intro record decoded path scalar sends
    have read := (decodeGcMatch_ok_iff split).mp decoded
    exact ⟨scalar.decoded, sends.numberAt_eq read, scalar.decoded_eq_value_iff,
      scalar.asItemId_decoded_iff⟩

theorem entry_players : gcMatch.entry "players" = some (.records 5 decodeGcPlayer) := by
  simp [gcMatch, Decoder.entry]

/-- A scalar of a player. -/
theorem sends_of_player {message : List WireField} {chunk : Uint8Array} {index id : Nat}
    {key : String} {scalar : Scalar} (player : List WireField) (field : WireField)
    (place : (chunks (message.map WireField.toProtoField) 5)[index]? = some chunk)
    (written : chunk.bytes = player.flatMap WireField.encode)
    (reads : decodeGcPlayer.entry key = some (.field (.num id)))
    (found : player.find? (·.number = id) = some field) (carries : field.value = scalar.wireValue) :
    Sends gcMatch message (.within "players" index (.key key)) scalar :=
  .within entry_players place written (.single reads rfl found carries)

/-- A match with one player, of whom one item is known. -/
theorem scalars_survive_item :
    ∃ (message : List WireField) (bytes : Uint8Array) (record : GcRecord),
      bytes.bytes = message.flatMap WireField.encode ∧ decodeGcMatch bytes = .ok record ∧
        numberAt (.within "players" 0 (.key "item_0")) record = some 46 := by
  let item : WireField := ⟨4, .varint 46, by decide, by decide⟩
  let player : List WireField := [item]
  let chunk : Uint8Array := ⟨player.flatMap WireField.encode, by decide +kernel⟩
  let message : List WireField := [⟨5, .bytes chunk, by decide, by decide⟩]
  let bytes : Uint8Array := ⟨message.flatMap WireField.encode, by decide +kernel⟩
  have typed : gcMatch.Typed message := by
    have players : chunks (message.map WireField.toProtoField) 5 = [chunk] := rfl
    have nothing (id : Nat) (other : id ≠ 5) :
        chunks (message.map WireField.toProtoField) id = [] := by
      simp [message, chunks, all, WireField.toProtoField, other.symm]
    have inner : decodeGcPlayer.Typed player := by
      simp [player, decodeGcPlayer, Decoder.Typed, Reader.Typed, chunks, all,
        WireField.toProtoField]
    simpa [gcMatch, Decoder.Typed, Reader.Typed, RowsOfVarints, players, nothing] using
      ⟨player, rfl, inner⟩
  have sends : Sends gcMatch message (.within "players" 0 (.key "item_0"))
      (.varint (.uint64 46)) := by
    have reads : decodeGcPlayer.entry "item_0" = some (.field (.num 4)) := by
      simp [decodeGcPlayer, Decoder.entry]
    exact sends_of_player player item (rfl : _ = some chunk) rfl reads rfl rfl
  obtain ⟨record, decoded⟩ := (scalars_survive_iff message bytes rfl).1 typed
  obtain ⟨value, found, same, -⟩ :=
    (scalars_survive_iff message bytes rfl).2 record decoded _ _ sends
  have exact : (value : Int) = 46 := same.mpr (by decide)
  obtain rfl : value = 46 := by omega
  exact ⟨message, bytes, record, rfl, decoded, found⟩

/-- The item `-1` gives the item id `2 ^ 64`, where an empty item has `0`, and two parties of
players of one match become one. -/
theorem empty_item_read_as_large :
    ∃ (message : List WireField) (bytes : Uint8Array) (record : GcRecord),
      bytes.bytes = message.flatMap WireField.encode ∧ decodeGcMatch bytes = .ok record ∧
      (Sends gcMatch message (.within "players" 0 (.key "item_0"))
          (.varint (.int32 (Int32.ofInt (-1)))) ∧
        numberAt (.within "players" 0 (.key "item_0")) record = some (2 ^ 64) ∧
        asItemId (some (.int (2 ^ 64 : Nat))) = some (.int (2 ^ 64)) ∧
        asItemId (some (.int (-1))) = some (.int 0)) ∧
      Sends gcMatch message (.within "players" 0 (.key "party_id")) (.fixed64 9007199254740992) ∧
      Sends gcMatch message (.within "players" 1 (.key "party_id")) (.fixed64 9007199254740993) ∧
      numberAt (.within "players" 0 (.key "party_id")) record =
        numberAt (.within "players" 1 (.key "party_id")) record := by
  let item : WireField := ⟨4, .varint 18446744073709551615, by decide, by decide⟩
  let party : WireField := ⟨38, .fixed64 9007199254740992, by decide, by decide⟩
  let party' : WireField := ⟨38, .fixed64 9007199254740993, by decide, by decide⟩
  let chunk : Uint8Array := ⟨[item, party].flatMap WireField.encode, by decide +kernel⟩
  let chunk' : Uint8Array := ⟨[party'].flatMap WireField.encode, by decide +kernel⟩
  let message : List WireField :=
    [⟨5, .bytes chunk, by decide, by decide⟩, ⟨5, .bytes chunk', by decide, by decide⟩]
  let bytes : Uint8Array := ⟨message.flatMap WireField.encode, by decide +kernel⟩
  have item_entry : decodeGcPlayer.entry "item_0" = some (.field (.num 4)) := by
    simp [decodeGcPlayer, Decoder.entry]
  have party_entry : decodeGcPlayer.entry "party_id" = some (.field (.num 38)) := by
    simp [decodeGcPlayer, Decoder.entry]
  have item_sent : Sends gcMatch message (.within "players" 0 (.key "item_0"))
      (.varint (.int32 (Int32.ofInt (-1)))) :=
    sends_of_player [item, party] item (rfl : _ = some chunk) rfl item_entry rfl
      (by decide +kernel)
  have party_sent : Sends gcMatch message (.within "players" 0 (.key "party_id"))
      (.fixed64 9007199254740992) :=
    sends_of_player [item, party] party (rfl : _ = some chunk) rfl party_entry rfl rfl
  have party_sent' : Sends gcMatch message (.within "players" 1 (.key "party_id"))
      (.fixed64 9007199254740993) :=
    sends_of_player [party'] party' (rfl : _ = some chunk') rfl party_entry rfl rfl
  have returned : (decodeGcMatch bytes).toOption.isSome := by decide +kernel
  obtain ⟨record, decoded⟩ : ∃ record, decodeGcMatch bytes = .ok record := by
    cases result : decodeGcMatch bytes with
    | error message =>
        rw [result] at returned
        cases returned
    | ok record => exact ⟨record, rfl⟩
  have written : bytes.bytes = message.flatMap WireField.encode := rfl
  have read := (decodeGcMatch_ok_iff (decodeFields_of_written written)).mp decoded
  have large : (Scalar.varint (.int32 (Int32.ofInt (-1)))).decoded = 2 ^ 64 := by decide +kernel
  have collide : (Scalar.fixed64 9007199254740992).decoded =
      (Scalar.fixed64 9007199254740993).decoded := by decide +kernel
  refine ⟨message, bytes, record, rfl, decoded, ⟨item_sent, ?_, rfl, rfl⟩, party_sent,
    party_sent', ?_⟩
  · rw [item_sent.numberAt_eq read, large]
  · rw [party_sent.numberAt_eq read, party_sent'.numberAt_eq read, collide]

end Gc
end DotaCollector
