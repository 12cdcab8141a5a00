import DotaCollector.Gc.Protobuf

/-!
# The wire format

What it means that a byte string is the encoding of a field, as the format has it and without an
offset: a tag, then the payload which the wire type of the tag announces. A round of the reader at
the start of an encoding gives the field and the offset behind it. The other way round, what a
round has read is an encoding, unless the offset is left behind the end of the buffer.
-/

namespace DotaCollector
namespace Gc

open Double (number)

/-- A varint of the format has ten groups at most. -/
def Group (bytes : List UInt8) (value : Nat) : Prop :=
  Varint.Denotes bytes value ∧ bytes.length ≤ 10

/-- The byte string is one encoding of the field. -/
inductive Encoded : ProtoField → List UInt8 → Prop where
  | varint {tag value : Nat} {head payload : List UInt8} (tagged : Group head tag)
      (wire : tag % 8 = 0) (encoded : Group payload value) :
      Encoded { field := number (tag >>> 3), wire := 0, varint := some value } (head ++ payload)
  | bytes {tag : Nat} {head length : List UInt8} (payload : Uint8Array) (tagged : Group head tag)
      (wire : tag % 8 = 2) (encoded : Group length payload.length) :
      Encoded { field := number (tag >>> 3), wire := 2, bytes := some payload }
        (head ++ (length ++ payload.bytes))
  | fixed32 {tag : Nat} {head payload : List UInt8} (tagged : Group head tag)
      (wire : tag % 8 = 5) (width : payload.length = 4) :
      Encoded { field := number (tag >>> 3), wire := 5,
                fixed32 := some (LittleEndian.value payload) } (head ++ payload)
  | fixed64 {tag : Nat} {head payload : List UInt8} (tagged : Group head tag)
      (wire : tag % 8 = 1) (width : payload.length = 8) :
      Encoded { field := number (tag >>> 3), wire := 1,
                fixed64 := some (LittleEndian.value payload) } (head ++ payload)

/-- The byte string is the encodings of the fields, one after the other. -/
def Message (fields : List ProtoField) (bytes : List UInt8) : Prop :=
  ∃ parts, bytes = parts.flatten ∧ List.Forall₂ Encoded fields parts

theorem message_nil : Message [] [] := ⟨[], rfl, .nil⟩

theorem Message.cons {field : ProtoField} {fields : List ProtoField} {part rest : List UInt8}
    (encoded : Encoded field part) (message : Message fields rest) :
    Message (field :: fields) (part ++ rest) := by
  obtain ⟨parts, rfl, matched⟩ := message
  exact ⟨part :: parts, rfl, .cons encoded matched⟩

/-! ### Reading at an offset -/

variable {buf : Uint8Array} {pos : Nat}

theorem drop_of_split {bytes after : List UInt8} (split : buf.bytes.drop pos = bytes ++ after) :
    buf.bytes.drop (pos + bytes.length) = after := by
  rw [← List.drop_drop, split, List.drop_left]

theorem le_length_of_split {bytes after : List UInt8} (split : buf.bytes.drop pos = bytes ++ after)
    (inside : pos < buf.length) : pos + (bytes.length + after.length) = buf.length := by
  have total := congrArg List.length split
  rw [List.length_drop, List.length_append] at total
  rw [Uint8Array.length] at *
  omega

theorem split_of_le {width : Nat} (room : pos + width ≤ buf.length) :
    ∃ word after, buf.bytes.drop pos = word ++ after ∧ word.length = width := by
  refine ⟨(buf.bytes.drop pos).take width, (buf.bytes.drop pos).drop width,
    (List.take_append_drop _ _).symm, ?_⟩
  rw [List.length_take, List.length_drop]
  rw [Uint8Array.length] at room
  omega

theorem readVarint_of_group {bytes after : List UInt8} {value : Nat}
    (split : buf.bytes.drop pos = bytes ++ after) (encoded : Group bytes value) :
    readVarint buf pos = .ok (value, pos + bytes.length) :=
  readVarint_ok_iff.mpr ⟨bytes, after, split, encoded.1, encoded.2, rfl⟩

theorem group_of_readVarint {value next : Nat} (read : readVarint buf pos = .ok (value, next)) :
    ∃ bytes after, buf.bytes.drop pos = bytes ++ after ∧ Group bytes value ∧
      next = pos + bytes.length := by
  obtain ⟨bytes, after, split, encoded, short, rfl⟩ := readVarint_ok_iff.mp read
  exact ⟨bytes, after, split, ⟨encoded, short⟩, rfl⟩

theorem shiftedByte_toNat (byte : UInt8) {shift : UInt32} (room : shift.toNat ≤ 24) :
    (byte.toUInt32 <<< shift).toNat = byte.toNat <<< shift.toNat := by
  have small := byte.toNat_lt
  have power : 2 ^ shift.toNat ≤ 2 ^ 24 := Nat.pow_le_pow_right (by decide) room
  have product : byte.toNat * 2 ^ shift.toNat ≤ 255 * 2 ^ 24 :=
    Nat.mul_le_mul (by omega) power
  have amount : shift.toNat % 32 = shift.toNat := Nat.mod_eq_of_lt (by omega)
  rw [UInt32.toNat_shiftLeft, UInt8.toNat_toUInt32, amount, Nat.shiftLeft_eq]
  exact Nat.mod_eq_of_lt (by omega)

/-- The shifted bytes of a word do not meet, so the machine word is the number they write. -/
theorem uint32_of_split {word after : List UInt8} (split : buf.bytes.drop pos = word ++ after)
    (width : word.length = 4) : (buf.uint32 pos).toNat = LittleEndian.value word := by
  obtain ⟨b0, b1, b2, b3, rfl⟩ := List.length_eq_four.mp width
  have entry (index : Nat) : buf.at_ (pos + index) = ([b0, b1, b2, b3] ++ after).getD index 0 := by
    rw [Uint8Array.at_, ← split, List.getD_eq_getElem?_getD, List.getD_eq_getElem?_getD,
      List.getElem?_drop]
  have first : buf.at_ pos = b0 := entry 0
  have second : buf.at_ (pos + 1) = b1 := entry 1
  have third : buf.at_ (pos + 2) = b2 := entry 2
  have fourth : buf.at_ (pos + 3) = b3 := entry 3
  have bound0 := b0.toNat_lt
  have bound1 := b1.toNat_lt
  have bound2 := b2.toNat_lt
  have bound3 := b3.toNat_lt
  rw [Uint8Array.uint32, first, second, third, fourth, UInt32.toNat_or, UInt32.toNat_or,
    UInt32.toNat_or, shiftedByte_toNat b1 (by decide), shiftedByte_toNat b2 (by decide),
    shiftedByte_toNat b3 (by decide), UInt8.toNat_toUInt32]
  change b0.toNat ||| b1.toNat <<< 8 ||| b2.toNat <<< 16 ||| b3.toNat <<< 24 = _
  have two : b0.toNat ||| b1.toNat <<< 8 = b0.toNat + 2 ^ 8 * b1.toNat :=
    or_shiftLeft (by omega) _
  have three : b0.toNat + 2 ^ 8 * b1.toNat ||| b2.toNat <<< 16 =
      b0.toNat + 2 ^ 8 * b1.toNat + 2 ^ 16 * b2.toNat :=
    or_shiftLeft (by omega) _
  rw [two, three, or_shiftLeft (by omega)]
  simp only [LittleEndian.value]
  omega

/-- Two words in a row are one of twice the width. -/
theorem uint64_of_split {word after : List UInt8} (split : buf.bytes.drop pos = word ++ after)
    (width : word.length = 8) :
    (buf.uint32 pos).toNat + (buf.uint32 (pos + 4)).toNat <<< 32 = LittleEndian.value word := by
  have halves : word.take 4 ++ word.drop 4 = word := List.take_append_drop 4 word
  have low_width : (word.take 4).length = 4 := by
    rw [List.length_take]
    omega
  have high_width : (word.drop 4).length = 4 := by
    rw [List.length_drop]
    omega
  rw [← halves, List.append_assoc] at split
  have high := drop_of_split split
  rw [low_width] at high
  rw [uint32_of_split split low_width, uint32_of_split high high_width, ← halves,
    LittleEndian.value_append, halves, low_width, Nat.shiftLeft_eq, Nat.mul_comm]
  norm_num

theorem slice_of_split {payload : Uint8Array} {after : List UInt8}
    (split : buf.bytes.drop pos = payload.bytes ++ after) :
    buf.slice pos (pos + payload.length) = payload := by
  apply Uint8Array.ext
  change (buf.bytes.drop pos).take (pos + payload.bytes.length - pos) = payload.bytes
  rw [split, Nat.add_sub_cancel_left, List.take_left]

/-! ### A round of the reader -/

theorem number_add_of_le (buf : Uint8Array) (start len : Nat) (inside : start + len ≤ buf.length) :
    number (start + number len) = start + len := by
  have bound := buf.length_lt
  rw [Uint8Array.length] at inside
  have exact : number len = len := Double.number_of_lt (by omega)
  rw [exact]
  exact Double.number_of_lt (by omega)

/-- A sum which stays in the buffer was not rounded. -/
theorem number_add_eq {start len : Nat} (inside : number (start + number len) ≤ buf.length) :
    number (start + number len) = start + len := by
  have bound := buf.length_lt
  have sum := Double.min_le_number (start + number len)
  have rounded := Double.min_le_number len
  rw [Uint8Array.length] at inside
  have exact : number len = len := Double.number_of_lt (by omega)
  rw [exact] at sum inside ⊢
  exact Double.number_of_lt (by omega)

/-- At the start of an encoding a round gives the field and goes behind the encoding. -/
theorem decodeField_of_encoded {field : ProtoField} {part after : List UInt8}
    (encoded : Encoded field part) (inside : pos < buf.length)
    (split : buf.bytes.drop pos = part ++ after) :
    decodeField buf pos = .ok (some field, pos + part.length) := by
  have total := le_length_of_split split inside
  rw [decodeField_ok_iff]
  cases encoded with
  | varint tagged wire payload =>
      rename_i tag value head payload
      rw [List.append_assoc] at split
      refine ⟨tag, _, readVarint_of_group split tagged, .inl ⟨wire, value, ?_, rfl⟩⟩
      rw [readVarint_of_group (drop_of_split split) payload, List.length_append, Nat.add_assoc]
  | bytes payload tagged wire encoded =>
      rename_i tag head length
      rw [List.append_assoc, List.append_assoc] at split
      rw [List.length_append, List.length_append] at total
      have size : payload.length = payload.bytes.length := rfl
      have body := drop_of_split (drop_of_split split)
      have stop := number_add_of_le buf (pos + head.length + length.length)
        payload.length (by omega)
      refine ⟨tag, _, readVarint_of_group split tagged, .inr (.inl ⟨wire, _, _,
        readVarint_of_group (drop_of_split split) encoded, ?_, ?_⟩)⟩
      · rw [stop, List.length_append, List.length_append]
        omega
      · have next : pos + (head ++ (length ++ payload.bytes)).length =
            pos + head.length + length.length + payload.length := by
          rw [List.length_append, List.length_append]
          omega
        rw [next, slice_of_split body]
  | fixed32 tagged wire width =>
      rename_i tag head payload
      rw [List.append_assoc] at split
      rw [List.length_append] at total
      refine ⟨tag, _, readVarint_of_group split tagged, .inr (.inr (.inl
        ⟨wire, by omega, ?_, ?_⟩))⟩
      · rw [List.length_append]
        omega
      · rw [uint32_of_split (drop_of_split split) width]
  | fixed64 tagged wire width =>
      rename_i tag head payload
      rw [List.append_assoc] at split
      rw [List.length_append] at total
      refine ⟨tag, _, readVarint_of_group split tagged, .inr (.inr (.inr
        ⟨wire, by omega, ?_, ?_⟩))⟩
      · rw [List.length_append]
        omega
      · rw [uint64_of_split (drop_of_split split) width]

/-- The bytes start with a length-delimited field which declares more bytes than there are. -/
def OverrunsHere (bytes : List UInt8) : Prop :=
  ∃ head length rest tag len, bytes = head ++ (length ++ rest) ∧ Group head tag ∧ tag % 8 = 2 ∧
    Group length len ∧ rest.length < len

/-- What a round which stays in the buffer has read is an encoding. -/
theorem encoded_of_decodeField {pushed : Option ProtoField} {next : Nat}
    (decoded : decodeField buf pos = .ok (pushed, next)) (stays : next ≤ buf.length) :
    ∃ field part after, pushed = some field ∧ buf.bytes.drop pos = part ++ after ∧
      Encoded field part ∧ next = pos + part.length := by
  obtain ⟨tag, start, read, decoded⟩ := decodeField_ok_iff.mp decoded
  have behind := lt_of_readVarint read
  obtain ⟨head, remaining, split, tagged, rfl⟩ := group_of_readVarint read
  have body := drop_of_split split
  rcases decoded with ⟨wire, value, read, rfl⟩ | ⟨wire, len, start, read, rfl, rfl⟩ |
    ⟨wire, room, rfl, rfl⟩ | ⟨wire, room, rfl, rfl⟩
  · obtain ⟨payload, after, payload_split, encoded, rfl⟩ := group_of_readVarint read
    refine ⟨_, head ++ payload, after, rfl, ?_, .varint tagged wire encoded, ?_⟩
    · rw [split, ← body, payload_split, List.append_assoc]
    · rw [List.length_append, Nat.add_assoc]
  · have inside := (lt_of_readVarint read).2
    obtain ⟨length, rest, length_split, encoded, rfl⟩ := group_of_readVarint read
    have unread := drop_of_split length_split
    have stop := number_add_eq stays
    have payload : (buf.slice (pos + head.length + length.length)
        (number (pos + head.length + length.length + number len))).bytes = rest.take len := by
      change (buf.bytes.drop _).take _ = _
      rw [unread, stop, Nat.add_sub_cancel_left]
    have size : (rest.take len).length = len := by
      have total := congrArg List.length unread
      rw [List.length_drop] at total
      rw [List.length_take]
      rw [Uint8Array.length] at *
      omega
    refine ⟨_, head ++ (length ++ rest.take len), rest.drop len, rfl, ?_, ?_, ?_⟩
    · rw [split, ← body, length_split, List.append_assoc, List.append_assoc,
        List.take_append_drop]
    · rw [← payload]
      refine .bytes _ tagged wire ?_
      rw [Uint8Array.length, payload, size]
      exact encoded
    · rw [stop, List.length_append, List.length_append, size]
      omega
  · obtain ⟨payload, after, payload_split, width⟩ := split_of_le room
    refine ⟨_, head ++ payload, after, rfl, ?_, ?_, ?_⟩
    · rw [split, ← body, payload_split, List.append_assoc]
    · rw [uint32_of_split payload_split width]
      exact .fixed32 tagged wire width
    · rw [List.length_append, width, Nat.add_assoc]
  · obtain ⟨payload, after, payload_split, width⟩ := split_of_le room
    refine ⟨_, head ++ payload, after, rfl, ?_, ?_, ?_⟩
    · rw [split, ← body, payload_split, List.append_assoc]
    · rw [uint64_of_split payload_split width]
      exact .fixed64 tagged wire width
    · rw [List.length_append, width, Nat.add_assoc]

/-- A round leaves the buffer only behind a field which declares too many bytes. -/
theorem overruns_of_decodeField {pushed : Option ProtoField} {next : Nat}
    (decoded : decodeField buf pos = .ok (pushed, next)) (leaves : buf.length < next) :
    OverrunsHere (buf.bytes.drop pos) := by
  obtain ⟨tag, start, read, decoded⟩ := decodeField_ok_iff.mp decoded
  obtain ⟨head, remaining, split, tagged, rfl⟩ := group_of_readVarint read
  rcases decoded with ⟨-, value, read, -⟩ | ⟨wire, len, start, read, rfl, -⟩ |
    ⟨-, room, rfl, -⟩ | ⟨-, room, rfl, -⟩
  · have := lt_of_readVarint read
    omega
  · have inside := (lt_of_readVarint read).2
    obtain ⟨length, rest, length_split, encoded, rfl⟩ := group_of_readVarint read
    have total := congrArg List.length (drop_of_split length_split)
    rw [List.length_drop] at total
    refine ⟨head, length, rest, tag, len, ?_, tagged, wire, encoded, ?_⟩
    · rw [split, ← drop_of_split split, length_split]
    · by_contra fits
      have stop := number_add_of_le buf (pos + head.length + length.length) len (by
        rw [Uint8Array.length] at *
        omega)
      rw [Uint8Array.length] at *
      omega
  · omega
  · omega

/-- The round does not notice it. -/
theorem decodeField_of_overruns (inside : pos < buf.length)
    (overruns : OverrunsHere (buf.bytes.drop pos)) :
    ∃ field next, decodeField buf pos = .ok (some field, next) ∧ buf.length < next := by
  obtain ⟨head, length, rest, tag, len, split, tagged, wire, encoded, short⟩ := overruns
  have total := le_length_of_split split inside
  rw [List.length_append] at total
  refine ⟨_, _, decodeField_ok_iff.mpr ⟨tag, _, readVarint_of_group split tagged,
    .inr (.inl ⟨wire, _, _, readVarint_of_group (drop_of_split split) encoded, rfl, rfl⟩)⟩, ?_⟩
  have bound := buf.length_lt
  have rounded := Double.min_le_number len
  have sum := Double.min_le_number (pos + head.length + length.length + number len)
  rw [Uint8Array.length] at *
  omega

theorem Group.value_lt {bytes : List UInt8} {value : Nat} (encoded : Group bytes value) :
    value < 2 ^ 70 := by
  have power : 128 ^ bytes.length ≤ 128 ^ 10 := Nat.pow_le_pow_right (by decide) encoded.2
  have below := encoded.1.value_lt
  omega

theorem varint_lt_of_decodeField {field : ProtoField} {next value : Nat}
    (decoded : decodeField buf pos = .ok (some field, next)) (found : field.varint = some value) :
    value < 2 ^ 70 := by
  obtain ⟨tag, start, -, decoded⟩ := decodeField_ok_iff.mp decoded
  rcases decoded with ⟨-, value, read, same⟩ | ⟨-, len, body, -, -, same⟩ | ⟨-, -, -, same⟩ |
    ⟨-, -, -, same⟩
  · cases same
    cases found
    obtain ⟨bytes, after, -, encoded, -⟩ := group_of_readVarint read
    exact encoded.value_lt
  all_goals
    cases same
    cases found

/-! ### The loop -/

theorem Encoded.length_pos {field : ProtoField} {part : List UInt8} (encoded : Encoded field part) :
    0 < part.length := by
  cases encoded with
  | varint tagged | bytes _ tagged | fixed32 tagged | fixed64 tagged =>
      have := tagged.1.length_pos
      rw [List.length_append]
      omega

theorem decodeFrom_of_end (outside : buf.length ≤ pos) : decodeFrom buf pos = .ok [] := by
  rw [decodeFrom, if_neg (by omega)]

theorem decodeFrom_of_decodeField {field : ProtoField} {next : Nat} (inside : pos < buf.length)
    (decoded : decodeField buf pos = .ok (some field, next)) :
    decodeFrom buf pos = (decodeFrom buf next).map (field :: ·) := by
  rw [decodeFrom, if_pos inside]
  split
  · rename_i failed
    rw [decoded] at failed
    cases failed
  · rename_i decoded'
    rw [decoded] at decoded'
    cases decoded'
    rfl

theorem decodeField_pushes {pushed : Option ProtoField} {next : Nat}
    (decoded : decodeField buf pos = .ok (pushed, next)) : ∃ field, pushed = some field := by
  obtain ⟨tag, start, -, decoded⟩ := decodeField_ok_iff.mp decoded
  rcases decoded with ⟨-, value, -, rfl⟩ | ⟨-, len, body, -, -, rfl⟩ | ⟨-, -, -, rfl⟩ |
    ⟨-, -, -, rfl⟩
  all_goals exact ⟨_, rfl⟩

/-- Induction over the rounds of a decoding which does not throw. -/
theorem decodeFrom_induction {motive : Nat → List ProtoField → Prop}
    (done : ∀ pos, buf.length ≤ pos → motive pos [])
    (round : ∀ pos field next rest, pos < buf.length →
      decodeField buf pos = .ok (some field, next) → motive next rest → motive pos (field :: rest))
    {fields : List ProtoField} (decoded : decodeFrom buf pos = .ok fields) : motive pos fields := by
  induction left : buf.length - pos using Nat.strongRecOn generalizing pos fields with
  | ind _ ih =>
      subst left
      rcases Nat.lt_or_ge pos buf.length with inside | outside
      · rw [decodeFrom, if_pos inside] at decoded
        split at decoded
        · cases decoded
        · rename_i pushed next first
          obtain ⟨field, rfl⟩ := decodeField_pushes first
          have onward := lt_of_decodeField first
          cases later : decodeFrom buf next with
          | error message =>
              rw [later] at decoded
              cases decoded
          | ok rest =>
              rw [later] at decoded
              cases decoded
              exact round pos field next rest inside first (ih _ (by omega) later rfl)
      · rw [decodeFrom_of_end outside] at decoded
        cases decoded
        exact done pos outside

/-- The rounds go through the encodings which are there and then see what is behind them. -/
theorem decodeFrom_of_message {fields : List ProtoField} {front rest : List UInt8}
    (message : Message fields front) (split : buf.bytes.drop pos = front ++ rest) :
    decodeFrom buf pos = (decodeFrom buf (pos + front.length)).map (fields ++ ·) := by
  obtain ⟨parts, rfl, matched⟩ := message
  induction matched generalizing pos with
  | nil =>
      change decodeFrom buf pos = (decodeFrom buf pos).map fun fields => fields
      cases decodeFrom buf pos <;> rfl
  | cons encoded matched ih =>
      rename_i field part fields parts
      have positive := encoded.length_pos
      rw [List.flatten_cons, List.append_assoc] at split
      have inside : pos < buf.length := by
        have total := congrArg List.length split
        rw [List.length_drop, List.length_append] at total
        rw [Uint8Array.length]
        omega
      rw [decodeFrom_of_decodeField inside (decodeField_of_encoded encoded inside split),
        ih (drop_of_split split), List.flatten_cons, List.length_append, Nat.add_assoc]
      cases decodeFrom buf (pos + (part.length + parts.flatten.length)) <;> rfl

/-- What is a message is read as that message. -/
theorem decodeFields_of_message {fields : List ProtoField} (message : Message fields buf.bytes) :
    decodeFields buf = .ok fields := by
  have split : buf.bytes.drop 0 = buf.bytes ++ [] := (List.append_nil _).symm
  have done : decodeFrom buf buf.bytes.length = .ok [] := decodeFrom_of_end (Nat.le_refl _)
  rw [decodeFields, decodeFrom_of_message message split, Nat.zero_add, done]
  exact congrArg Except.ok (List.append_nil fields)

end Gc
end DotaCollector
