import DotaCollector.Gc.WireFormat

/-!
# Repeated scalars

The elements of a repeated scalar field stand in any mixture of single records and packed chunks,
in wire order. The reader takes the elements of a chunk when the chunk is the only record of the
field; among several records it takes the single ones and drops every chunk. It reads an element
as an unsigned number, so a negative `int32`, which is written with its sign extended to 64 bits,
does not come back either.
-/

namespace DotaCollector
namespace Gc

open Double (number)

/-- The chunk is a row of varints. -/
def Packed (bytes : List UInt8) (values : List Nat) : Prop :=
  ∃ parts, bytes = parts.flatten ∧ List.Forall₂ Group parts values

/-- The elements which a record of the field holds; `code` is the varint of an element. -/
inductive Carries {Element : Type} (code : Element → Nat) : ProtoField → List Element → Prop where
  | single (field : Nat) (element : Element) :
      Carries code { field, wire := 0, varint := some (code element) } [element]
  | packed (field : Nat) (chunk : Uint8Array) (elements : List Element)
      (row : Packed chunk.bytes (elements.map code)) :
      Carries code { field, wire := 2, bytes := some chunk } elements

/-- The varint of an `int32`: the sign is extended to 64 bits. -/
def int32Code (element : Int32) : Nat := (element.toInt % 2 ^ 64).toNat

/-- There is one record, or every chunk is empty. -/
def Together (found : List ProtoField) : Prop :=
  found.length = 1 ∨ ∀ record ∈ found, ∀ chunk, record.bytes = some chunk → chunk.bytes = []

/-! ### A packed chunk -/

theorem packedFrom_of_end {bytes : Uint8Array} {pos : Nat} (outside : bytes.length ≤ pos) :
    packedFrom bytes pos = .ok [] := by
  rw [packedFrom, if_neg (by omega)]

theorem packedFrom_of_readVarint {bytes : Uint8Array} {pos value next : Nat}
    (inside : pos < bytes.length) (read : readVarint bytes pos = .ok (value, next)) :
    packedFrom bytes pos = (packedFrom bytes next).map (number value :: ·) := by
  rw [packedFrom, if_pos inside]
  split
  · rename_i failed
    rw [read] at failed
    cases failed
  · rename_i read'
    rw [read] at read'
    cases read'
    rfl

theorem packedFrom_of_packed {bytes : Uint8Array} {pos : Nat} {values : List Nat}
    (packed : Packed (bytes.bytes.drop pos) values) :
    packedFrom bytes pos = .ok (values.map number) := by
  obtain ⟨parts, split, matched⟩ := packed
  induction matched generalizing pos with
  | nil =>
      refine packedFrom_of_end ?_
      have total := congrArg List.length split
      rw [List.length_drop, List.flatten_nil, List.length_nil] at total
      rw [Uint8Array.length]
      omega
  | cons encoded matched ih =>
      rename_i part value parts values
      have positive := encoded.1.length_pos
      rw [List.flatten_cons] at split
      have inside : pos < bytes.length := by
        have total := congrArg List.length split
        rw [List.length_drop, List.length_append] at total
        rw [Uint8Array.length]
        omega
      rw [packedFrom_of_readVarint inside (readVarint_of_group split encoded),
        ih (drop_of_split split)]
      rfl

theorem Packed.eq_nil_iff {bytes : List UInt8} {values : List Nat} (packed : Packed bytes values) :
    bytes = [] ↔ values = [] := by
  obtain ⟨parts, rfl, matched⟩ := packed
  cases matched with
  | nil => simp
  | cons encoded matched =>
      have := encoded.1.ne_nil
      simp [this]

/-! ### The records of a field -/

theorem num_varint (field value : Nat) :
    num (some { field, wire := 0, varint := some value }) = some (number value) := rfl

theorem num_bytes (field : Nat) (chunk : Uint8Array) :
    num (some { field, wire := 2, bytes := some chunk }) = none := rfl

variable {Element : Type} {code : Element → Nat} {found : List ProtoField}
  {split : List (List Element)}

/-- A chunk gives no number of its own, and it is empty when it holds no element. -/
theorem Carries.of_chunk {record : ProtoField} {elements : List Element} {chunk : Uint8Array}
    (carries : Carries code record elements) (packed : record.bytes = some chunk) :
    num (some record) = none ∧ (chunk.bytes = [] ↔ elements = []) := by
  cases carries with
  | single => cases packed
  | packed field chunk elements row =>
      cases packed
      exact ⟨rfl, row.eq_nil_iff.trans List.map_eq_nil_iff⟩

/-- Single records give their elements in order. -/
theorem singles_of_empty_chunks (carries : List.Forall₂ (Carries code) found split)
    (empty : ∀ record ∈ found, ∀ chunk, record.bytes = some chunk → chunk.bytes = []) :
    (found.flatMap fun field => (num (some field)).toList) =
      split.flatten.map fun element => number (code element) := by
  induction carries with
  | nil => rfl
  | cons first carries ih =>
      have later := ih fun record member => empty record (.tail _ member)
      rw [List.flatMap_cons, List.flatten_cons, List.map_append, later]
      congr 1
      cases first with
      | single field element => rfl
      | packed field chunk elements row =>
          have none_left := row.eq_nil_iff.mp (empty _ (.head _) chunk rfl)
          rw [List.map_eq_nil_iff.mp none_left]
          rfl

theorem length_singles_le (carries : List.Forall₂ (Carries code) found split) :
    (found.flatMap fun field => (num (some field)).toList).length ≤ split.flatten.length := by
  induction carries with
  | nil => exact Nat.le_refl _
  | cons first carries ih =>
      rw [List.flatMap_cons, List.flatten_cons, List.length_append, List.length_append]
      cases first with
      | single field element =>
          rw [num_varint, Option.toList_some, List.length_singleton, List.length_singleton]
          omega
      | packed field chunk elements row =>
          rw [num_bytes, Option.toList_none, List.length_nil]
          omega

/-- An element of a chunk among other records is lost. -/
theorem length_singles_lt (carries : List.Forall₂ (Carries code) found split)
    {record : ProtoField} {chunk : Uint8Array} (member : record ∈ found)
    (packed : record.bytes = some chunk) (nonempty : chunk.bytes ≠ []) :
    (found.flatMap fun field => (num (some field)).toList).length < split.flatten.length := by
  induction carries with
  | nil => cases member
  | cons first carries ih =>
      rw [List.flatMap_cons, List.flatten_cons, List.length_append, List.length_append]
      rcases List.mem_cons.mp member with rfl | later
      · have rest := length_singles_le carries
        obtain ⟨dropped, empty⟩ := first.of_chunk packed
        have positive := List.length_pos_iff.mpr (mt empty.mpr nonempty)
        rw [dropped, Option.toList_none, List.length_nil]
        omega
      · have rest := ih later
        cases first with
        | single field element =>
            rw [num_varint, Option.toList_some, List.length_singleton, List.length_singleton]
            omega
        | packed field chunk elements row =>
            rw [num_bytes, Option.toList_none, List.length_nil]
            omega

/-- The only record of a field gives all its elements. -/
theorem repeatedUint32_of_alone {fields : List ProtoField} {id : Nat}
    (carries : List.Forall₂ (Carries code) (all fields id) split)
    (alone : (all fields id).length = 1) : repeatedUint32 fields id =
      .ok (split.flatten.map fun element => number (code element)) := by
  rw [repeatedUint32]
  obtain ⟨record, found⟩ := List.length_eq_one_iff.mp alone
  rw [found] at carries ⊢
  cases carries with
  | cons first rest =>
      cases rest
      cases first with
      | single field element => rfl
      | packed field chunk elements row =>
          have whole : packedFrom chunk 0 = _ := packedFrom_of_packed row
          simpa [packedUint32, Function.comp_def] using whole

/-- Several records give their single values. -/
theorem repeatedUint32_of_many {fields : List ProtoField} {id : Nat}
    (many : (all fields id).length ≠ 1) : repeatedUint32 fields id =
      .ok ((all fields id).flatMap fun field => (num (some field)).toList) := by
  rw [repeatedUint32]
  rcases Nat.eq_zero_or_pos (all fields id).length with absent | present
  · rw [List.length_eq_zero_iff.mp absent]
    rfl
  · have many' : ¬ ((all fields id).length = 1 ∧
        ((all fields id).head?.bind (·.bytes)).isSome) := fun single => many single.1
    simp only [Nat.ne_of_gt present, many', if_false]

theorem repeatedUint32_of_together {fields : List ProtoField} {id : Nat}
    (carries : List.Forall₂ (Carries code) (all fields id) split)
    (together : Together (all fields id)) : repeatedUint32 fields id =
      .ok (split.flatten.map fun element => number (code element)) := by
  by_cases alone : (all fields id).length = 1
  · exact repeatedUint32_of_alone carries alone
  · have empty := together.resolve_left alone
    rw [repeatedUint32_of_many alone, singles_of_empty_chunks carries empty]

theorem repeatedUint32_of_scattered {fields : List ProtoField} {id : Nat}
    (carries : List.Forall₂ (Carries code) (all fields id) split)
    (scattered : ¬ Together (all fields id)) : ∃ numbers,
      repeatedUint32 fields id = .ok numbers ∧ numbers.length < split.flatten.length := by
  rw [Together, not_or] at scattered
  obtain ⟨many, chunk⟩ := scattered
  push Not at chunk
  obtain ⟨record, member, chunk, packed, nonempty⟩ := chunk
  exact ⟨_, repeatedUint32_of_many many, length_singles_lt carries member packed nonempty⟩

/-- Only the elements which are not negative are read as they are. -/
theorem number_int32Code {element : Int32} (positive : 0 ≤ element.toInt) :
    (number (int32Code element) : Int) = element.toInt := by
  have below := element.toInt_lt
  have value : int32Code element = element.toInt.toNat := by
    rw [int32Code]
    omega
  rw [value, Double.number_of_lt (by omega)]
  exact Int.toNat_of_nonneg positive

/-- Packing does not matter, and the numbers are the elements, in exactly these cases. -/
theorem repeated_independent_of_packing_iff (fields : List ProtoField) (id : Nat) :
    (∀ split : List (List UInt32), List.Forall₂ (Carries UInt32.toNat) (all fields id) split →
        (repeatedUint32 fields id = .ok (split.flatten.map UInt32.toNat) ↔
          Together (all fields id))) ∧
    ∀ split : List (List Int32), List.Forall₂ (Carries int32Code) (all fields id) split →
        ((∃ numbers, repeatedInt32 fields id = .ok numbers ∧
            numbers.map Int.ofNat = split.flatten.map Int32.toInt) ↔
          Together (all fields id) ∧ ∀ element ∈ split.flatten, 0 ≤ element.toInt) := by
  constructor
  · intro split carries
    constructor
    · intro whole
      by_contra scattered
      obtain ⟨numbers, given, short⟩ := repeatedUint32_of_scattered carries scattered
      rw [whole] at given
      cases given
      rw [List.length_map] at short
      omega
    · intro together
      have exact (element : UInt32) : number element.toNat = element.toNat :=
        Double.number_of_lt (by have := element.toNat_lt; omega)
      rw [repeatedUint32_of_together carries together]
      simp only [exact]
  · intro split carries
    constructor
    · rintro ⟨numbers, whole, same⟩
      constructor
      · by_contra scattered
        obtain ⟨fewer, given, short⟩ := repeatedUint32_of_scattered carries scattered
        rw [repeatedInt32, given] at whole
        cases whole
        have lengths := congrArg List.length same
        rw [List.length_map, List.length_map] at lengths
        omega
      · intro element member
        have read : element.toInt ∈ numbers.map Int.ofNat := by
          rw [same]
          exact List.mem_map_of_mem member
        obtain ⟨value, -, unsigned⟩ := List.mem_map.mp read
        rw [← unsigned]
        exact Int.natCast_nonneg value
    · rintro ⟨together, positive⟩
      refine ⟨_, repeatedUint32_of_together carries together, ?_⟩
      rw [List.map_map]
      exact List.map_congr_left fun element member => number_int32Code (positive element member)

/-- One chunk with two elements, and a single element of an `int32` field. -/
theorem repeated_independent_of_packing_pair :
    (∃ fields, decodeFields ⟨[0x42, 0x02, 0x3f, 0x00], by decide⟩ = .ok fields ∧
      repeatedUint32 fields 8 = .ok [63, 0]) ∧
    ∃ fields, decodeFields ⟨[0x10, 0x05], by decide⟩ = .ok fields ∧
      ∃ numbers, repeatedInt32 fields 2 = .ok numbers ∧ numbers.map Int.ofNat = [5] := by
  have chunk : Packed [0x3f, 0x00] [63, 0] :=
    ⟨[[0x3f], [0x00]], rfl, .cons ⟨.last 0x3f (by decide), by decide⟩
      (.cons ⟨.last 0x00 (by decide), by decide⟩ .nil)⟩
  constructor
  · let fields : List ProtoField :=
      [{ field := 8, wire := 2, bytes := some ⟨[0x3f, 0x00], by decide⟩ }]
    refine ⟨fields, by decide +kernel, ?_⟩
    exact ((repeated_independent_of_packing_iff fields 8).1 [[63, 0]]
      (.cons (.packed 8 _ _ chunk) .nil)).mpr (.inl rfl)
  · let fields : List ProtoField := [{ field := 2, wire := 0, varint := some 5 }]
    refine ⟨fields, by decide +kernel, ?_⟩
    exact ((repeated_independent_of_packing_iff fields 2).2 [[5]]
      (.cons (.single 2 5) .nil)).mpr ⟨.inl rfl, by simp⟩

/-- Two chunks of one element each: no element is returned. -/
theorem repeatedUint32_two_chunks : ∃ fields,
    decodeFields ⟨[0x42, 0x01, 0x3f, 0x42, 0x01, 0x07], by decide⟩ = .ok fields ∧
      List.Forall₂ (Carries UInt32.toNat) (all fields 8) [[63], [7]] ∧
      repeatedUint32 fields 8 = .ok [] := by
  have first : Packed [0x3f] [63] :=
    ⟨[[0x3f]], rfl, .cons ⟨.last 0x3f (by decide), by decide⟩ .nil⟩
  have second : Packed [0x07] [7] :=
    ⟨[[0x07]], rfl, .cons ⟨.last 0x07 (by decide), by decide⟩ .nil⟩
  refine ⟨[{ field := 8, wire := 2, bytes := some ⟨[0x3f], by decide⟩ },
    { field := 8, wire := 2, bytes := some ⟨[0x07], by decide⟩ }], by decide +kernel, ?_, rfl⟩
  exact .cons (.packed 8 _ _ first) (.cons (.packed 8 _ _ second) .nil)

end Gc
end DotaCollector
