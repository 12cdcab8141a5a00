import DotaCollector.Gc.WireFormat

/-!
# What the reader accepts

A buffer which the reader takes ought to be a message: the encodings of the fields it gives back,
end to end. A declared length is not compared with what is left of the buffer, and `slice` clamps.
So the reader takes, besides the messages, the messages which are followed by one field that
declares more bytes than there are, and no other buffer.
-/

namespace DotaCollector
namespace Gc

/-- Behind some whole fields the bytes go on with one that declares too many bytes. -/
def Overruns (bytes : List UInt8) : Prop :=
  ∃ fields front rest, bytes = front ++ rest ∧ Message fields front ∧ OverrunsHere rest

/-- What the reader accepts is covered by the fields it gives back, and a declared length past
the end is rejected. -/
def Sound (buf : Uint8Array) : Prop :=
  (∀ fields, decodeFields buf = .ok fields → Message fields buf.bytes) ∧
    (Overruns buf.bytes → ∃ message, decodeFields buf = .error message)

variable {buf : Uint8Array} {pos : Nat}

theorem OverrunsHere.ne_nil {bytes : List UInt8} (overruns : OverrunsHere bytes) :
    bytes ≠ [] := by
  obtain ⟨head, length, rest, tag, len, rfl, tagged, -⟩ := overruns
  have := tagged.1.ne_nil
  simp [this]

theorem Overruns.cons {field : ProtoField} {part rest : List UInt8} (encoded : Encoded field part)
    (overruns : Overruns rest) : Overruns (part ++ rest) := by
  obtain ⟨fields, front, behind, rfl, message, here⟩ := overruns
  exact ⟨field :: fields, part ++ front, behind, (List.append_assoc _ _ _).symm,
    Message.cons encoded message, here⟩

/-- What a decoding has gone through is a message, unless a length overran on the way. -/
theorem message_or_overruns {fields : List ProtoField}
    (decoded : decodeFrom buf pos = .ok fields) (inside : pos ≤ buf.length) :
    Message fields (buf.bytes.drop pos) ∨ Overruns (buf.bytes.drop pos) := by
  refine decodeFrom_induction (motive := fun pos fields => pos ≤ buf.length →
    Message fields (buf.bytes.drop pos) ∨ Overruns (buf.bytes.drop pos)) ?_ ?_ decoded inside
  · intro pos outside _
    left
    rw [List.drop_of_length_le outside]
    exact message_nil
  · intro pos field next rest _ first later _
    rcases Nat.lt_or_ge buf.length next with leaves | stays
    · have here := overruns_of_decodeField first leaves
      exact .inr ⟨[], [], _, rfl, message_nil, here⟩
    · obtain ⟨field, part, after, pushed, split, encoded, rfl⟩ :=
        encoded_of_decodeField first stays
      cases pushed
      rw [drop_of_split split] at later
      rw [split]
      rcases later stays with message | overruns
      · exact .inl (Message.cons encoded message)
      · exact .inr (overruns.cons encoded)

/-- A declared length past the end ends the loop and is not reported. -/
theorem decodeFrom_of_overrunsHere (overruns : OverrunsHere (buf.bytes.drop pos)) :
    ∃ field, decodeFrom buf pos = .ok [field] := by
  have inside : pos < buf.length := by
    by_contra outside
    exact overruns.ne_nil (List.drop_of_length_le (Nat.not_lt.mp outside))
  obtain ⟨field, next, decoded, leaves⟩ := decodeField_of_overruns inside overruns
  refine ⟨field, ?_⟩
  rw [decodeFrom_of_decodeField inside decoded, decodeFrom_of_end (Nat.le_of_lt leaves)]
  rfl

theorem decodeFields_of_overruns (overruns : Overruns buf.bytes) :
    ∃ fields, decodeFields buf = .ok fields := by
  obtain ⟨fields, front, rest, split, message, here⟩ := overruns
  have start : buf.bytes.drop 0 = front ++ rest := split
  have behind := drop_of_split start
  rw [← behind] at here
  obtain ⟨field, last⟩ := decodeFrom_of_overrunsHere here
  rw [decodeFields, decodeFrom_of_message message start, last]
  exact ⟨fields ++ [field], rfl⟩

/-- The reader is sound on exactly the buffers in which no declared length overruns. -/
theorem sound_iff_not_overruns (buf : Uint8Array) : Sound buf ↔ ¬ Overruns buf.bytes := by
  constructor
  · rintro ⟨-, rejected⟩ overruns
    obtain ⟨fields, accepted⟩ := decodeFields_of_overruns overruns
    obtain ⟨message, failed⟩ := rejected overruns
    rw [accepted] at failed
    cases failed
  · intro within
    refine ⟨?_, fun overruns => absurd overruns within⟩
    intro fields decoded
    have covered : Message fields (buf.bytes.drop 0) ∨ Overruns (buf.bytes.drop 0) :=
      message_or_overruns decoded (Nat.zero_le _)
    exact covered.resolve_right within

/-- Five bytes are declared and one is there. -/
theorem truncated_bytes_accepted : ∃ buf : Uint8Array, buf.bytes = [0x0a, 0x05, 0x41] ∧
    decodeFields buf = .ok [{ field := 1, wire := 2, bytes := some ⟨[0x41], by decide⟩ }] ∧
    ¬ Sound buf := by
  let buf : Uint8Array := ⟨[0x0a, 0x05, 0x41], by decide⟩
  refine ⟨buf, rfl, by decide +kernel, ?_⟩
  rintro ⟨-, rejected⟩
  have tagged : Group [0x0a] 10 := ⟨.last 0x0a (by decide), by decide⟩
  have length : Group [0x05] 5 := ⟨.last 0x05 (by decide), by decide⟩
  have overruns : Overruns buf.bytes :=
    ⟨[], [], _, rfl, message_nil, [0x0a], [0x05], [0x41], 10, 5, rfl, tagged, rfl, length,
      by decide⟩
  obtain ⟨fields, accepted⟩ := decodeFields_of_overruns overruns
  obtain ⟨message, failed⟩ := rejected overruns
  rw [accepted] at failed
  cases failed

end Gc
end DotaCollector
