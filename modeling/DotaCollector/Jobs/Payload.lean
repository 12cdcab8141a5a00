import DotaCollector.Library.NumericText

/-!
# Payloads

The payload of a job is a JSON value. The budget of a job on a named queue travels in three
fields of its payload, and everything else in it is the job's own.
-/

namespace DotaCollector
namespace Jobs

/-- A JSON value; its doubles are told as rational numbers. -/
inductive Json where
  | null
  | bool (value : Bool)
  | number (value : ℚ)
  | string (text : String)
  | array (items : List Json)
  | object (fields : List (String × Json))

abbrev Record := List (String × Json)

namespace Record

def get (body : Record) (name : String) : Option Json := (body.find? (·.1 = name)).map Prod.snd

/-- `{ ...body, name: value }` -/
def set (body : Record) (name : String) (value : Json) : Record :=
  if body.any (·.1 = name) then
    body.map fun field => if field.1 = name then (name, value) else field
  else body ++ [(name, value)]

/-- The fields which the retries write. -/
def bookkeeping : List String := ["_tries", "_maxAttempts", "_queueName"]

def own (body : Record) : Record := body.filter (·.1 ∉ bookkeeping)

variable {body : Record} {name other : String} {value : Json}

theorem get_set_self : (body.set name value).get name = some value := by
  unfold set get
  split
  · rename_i present
    obtain ⟨field, member, named⟩ := List.any_eq_true.mp present
    rw [List.find?_map]
    cases search : body.find? ((fun field => decide (field.1 = name)) ∘
        fun field => if field.1 = name then (name, value) else field) with
    | none =>
        have missed := List.find?_eq_none.mp search field member
        simp_all
    | some hit =>
        have named := List.find?_some search
        by_cases same : hit.1 = name <;> simp_all
  · rename_i absent
    have missed : body.find? (·.1 = name) = none := by
      rw [List.find?_eq_none]
      intro field member named
      exact absent (List.any_eq_true.mpr ⟨field, member, named⟩)
    simp [missed]

theorem get_set_of_ne (ne : other ≠ name) : (body.set name value).get other = body.get other := by
  unfold set get
  split
  · have unmoved : ((fun field : String × Json => decide (field.1 = other)) ∘
        fun field => if field.1 = name then (name, value) else field) =
        fun field => decide (field.1 = other) := by
      funext field
      by_cases same : field.1 = name <;> simp [same]
    rw [List.find?_map, unmoved, Option.map_map]
    cases search : body.find? (·.1 = other) with
    | none => rfl
    | some hit =>
        have named : hit.1 = other := by simpa using List.find?_some search
        have kept : hit.1 ≠ name := fun same => ne (named.symm.trans same)
        simp [kept]
  · simp [ne.symm]

theorem own_set (written : name ∈ bookkeeping) : (body.set name value).own = body.own := by
  unfold set own
  split
  · rw [List.filter_map]
    have unmoved : ((fun field : String × Json => decide (field.1 ∉ bookkeeping)) ∘
        fun field => if field.1 = name then (name, value) else field) =
        fun field => decide (field.1 ∉ bookkeeping) := by
      funext field
      by_cases same : field.1 = name <;> simp [same]
    rw [unmoved]
    refine (List.map_congr_left fun field member => ?_).trans (List.map_id _)
    have kept : field.1 ∉ bookkeeping := by simpa using (List.mem_filter.mp member).2
    have ne : field.1 ≠ name := fun same => kept (same ▸ written)
    simp [ne]
  · simp [written]

end Record

/-! ## Reading -/

/-- A text is read as `Number` reads it, and must be finite. -/
def asNumber : Option Json → Option ℚ
  | some (.number value) => some value
  | some (.string text) => if text = "" then none else NumericText.number text
  | _ => none

def asString : Option Json → Option String
  | some (.string text) => if text = "" then none else some text
  | _ => none

/-- An array is a record of its positions. -/
def asRecord : Option Json → Option Record
  | some (.object fields) => some fields
  | some (.array items) => some (items.zipIdx.map fun (item, index) => (toString index, item))
  | _ => none

/-- The fields of a payload which is an object, or the text of one. -/
def readJobPayload (parse : String → Option Json) (payload : Json) : Record :=
  match payload with
  | .string text =>
      match parse text with
      | some (.object fields) => fields
      | _ => []
  | .object fields => fields
  | _ => []

/-- The payload of a job which is overwritten: two arrays are joined. -/
def mergePayload : Json → Json → Json
  | .array items, .array more => .array (items ++ more)
  | _, payload => payload

/-- `payload ?? {}` -/
def orEmpty : Option Json → Json
  | none | some .null => .object []
  | some payload => payload

theorem asRecord_orEmpty (payload : Option Json) :
    (asRecord (some (orEmpty payload))).getD [] = (asRecord payload).getD [] := by
  rcases payload with - | (- | - | - | - | - | -)
  all_goals rfl

end Jobs
end DotaCollector
