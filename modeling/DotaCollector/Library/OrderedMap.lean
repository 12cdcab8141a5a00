import DotaCollector.Library.FirstOccurrences
import DotaCollector.Library.Keyed

/-!
# Maps in the order of insertion

A map lists its keys in the order in which they came. Setting the value of a key which is there
leaves it in its place, and a new key comes last.
-/

namespace OrderedMap

variable {Key Value Item : Type*} [DecidableEq Key]

def get? (map : List (Key × Value)) (key : Key) : Option Value :=
  (map.find? (·.1 = key)).map Prod.snd

def put : List (Key × Value) → Key → Value → List (Key × Value)
  | [], key, value => [(key, value)]
  | (first, old) :: map, key, value =>
      if first = key then (first, value) :: map else (first, old) :: put map key value

variable {map : List (Key × Value)} {key : Key} {value : Value}

theorem get?_cons (first : Key) (old : Value) (map : List (Key × Value)) (key : Key) :
    get? ((first, old) :: map) key = if first = key then some old else get? map key := by
  unfold get?
  rw [List.find?_cons]
  by_cases same : first = key
  · simp [same]
  · simp [same]

@[simp]
theorem get?_put_self (map : List (Key × Value)) (key : Key) (value : Value) :
    get? (put map key value) key = some value := by
  induction map with
  | nil => simp [put, get?]
  | cons entry map ih =>
      obtain ⟨first, old⟩ := entry
      rw [put]
      split_ifs with same
      · rw [get?_cons, if_pos same]
      · rw [get?_cons, if_neg same, ih]

theorem get?_put_of_ne {other : Key} (ne : other ≠ key) :
    get? (put map key value) other = get? map other := by
  induction map with
  | nil => simp [put, get?, Ne.symm ne]
  | cons entry map ih =>
      obtain ⟨first, old⟩ := entry
      rw [put]
      split_ifs with same
      · rw [get?_cons, get?_cons, if_neg (same ▸ Ne.symm ne), if_neg (same ▸ Ne.symm ne)]
      · rw [get?_cons, get?_cons, ih]

/-- Setting what is there. -/
theorem put_of_get? (found : get? map key = some value) : put map key value = map := by
  induction map with
  | nil => cases found
  | cons entry map ih =>
      obtain ⟨first, old⟩ := entry
      rw [get?_cons] at found
      rw [put]
      split_ifs at found ⊢ with same
      · cases found
        rfl
      · rw [ih found]

/-- The last one counts. -/
theorem put_put (map : List (Key × Value)) (key : Key) (old value : Value) :
    put (put map key old) key value = put map key value := by
  induction map with
  | nil => simp [put]
  | cons entry map ih =>
      obtain ⟨first, before⟩ := entry
      by_cases same : first = key
      · simp [put, same]
      · simp [put, same, ih]

theorem keys_put : (put map key value).map Prod.fst =
    map.map Prod.fst ++ if key ∈ map.map Prod.fst then [] else [key] := by
  induction map with
  | nil => simp [put]
  | cons entry map ih =>
      obtain ⟨first, old⟩ := entry
      rw [put]
      by_cases same : first = key
      · simp [same]
      · have known : key ∈ first :: map.map Prod.fst ↔ key ∈ map.map Prod.fst := by
          rw [List.mem_cons]
          exact or_iff_right (Ne.symm same)
        rw [if_neg same, List.map_cons, List.map_cons, ih, if_congr known rfl rfl]
        rfl

theorem get?_eq_none_iff : get? map key = none ↔ key ∉ map.map Prod.fst := by
  simp only [get?, Option.map_eq_none_iff, List.find?_eq_none, decide_eq_true_eq, List.mem_map,
    not_exists, not_and]

theorem put_of_get?_eq_none (absent : get? map key = none) :
    put map key value = map ++ [(key, value)] := by
  induction map with
  | nil => rfl
  | cons entry map ih =>
      obtain ⟨first, old⟩ := entry
      rw [get?_cons] at absent
      rw [put]
      split_ifs at absent ⊢ with same
      rw [ih absent, List.cons_append]

section Image

variable {Image : Type*}

/-- Every value is changed by its key. -/
theorem get?_map_keyed (image : Key → Value → Image) :
    get? (map.map fun entry => (entry.1, image entry.1 entry.2)) key =
      (get? map key).map (image key) := by
  induction map with
  | nil => rfl
  | cons entry map ih =>
      obtain ⟨first, old⟩ := entry
      rw [List.map_cons, get?_cons, get?_cons, ih]
      split_ifs with same
      · subst same
        rfl
      · rfl

variable (image : Value → Image)

theorem get?_map : get? (map.map fun entry => (entry.1, image entry.2)) key =
    (get? map key).map image := get?_map_keyed fun _ => image

theorem map_put : (put map key value).map (fun entry => (entry.1, image entry.2)) =
    put (map.map fun entry => (entry.1, image entry.2)) key (image value) := by
  induction map with
  | nil => rfl
  | cons entry map ih =>
      obtain ⟨first, old⟩ := entry
      rw [put, List.map_cons, put]
      split_ifs
      · rfl
      · rw [List.map_cons, ih]

end Image

/-- In a map without repetitions an entry is what its key gets. -/
theorem get?_of_mem (nodup : (map.map Prod.fst).Nodup) (member : (key, value) ∈ map) :
    get? map key = some value := by
  induction map with
  | nil => cases member
  | cons entry map ih =>
      obtain ⟨first, old⟩ := entry
      rw [List.map_cons, List.nodup_cons] at nodup
      rw [get?_cons]
      rcases List.mem_cons.mp member with same | later
      · cases same
        rw [if_pos rfl]
      · have ne : first ≠ key := by
          rintro rfl
          exact nodup.1 (List.mem_map.mpr ⟨(first, value), later, rfl⟩)
        rw [if_neg ne, ih nodup.2 later]

/-! ## Values which items change -/

section Items

variable (name : Item → Key) (change : Option Value → Item → Value)

/-- An item sets the value of its key. -/
def note (map : List (Key × Value)) (item : Item) : List (Key × Value) :=
  put map (name item) (change (get? map (name item)) item)

theorem cells_note : Keyed.Cells (note name change) (@get? Key Value _) name
    fun value item => some (change value item) where
  own _ _ := get?_put_self _ _ _
  other _ _ _ ne := get?_put_of_ne ne

/-- The value of a key is what its own items make of it. -/
theorem get?_notes (items : List Item) (key : Key) :
    get? (items.foldl (note name change) []) key =
      (items.filter (name · = key)).foldl (fun value item => some (change value item)) none :=
  (cells_note name change).look_foldl [] items key

/-- The keys come in the order of their first items. -/
theorem keys_notes (items : List Item) : (items.foldl (note name change) []).map Prod.fst =
    (FirstOccurrences.firsts name items).map name := by
  induction items using List.reverseRecOn with
  | nil => rfl
  | append_singleton items item ih =>
      rw [List.foldl_append, List.foldl_cons, List.foldl_nil, note, keys_put, ih,
        FirstOccurrences.firsts_append_singleton, List.map_append]
      simp only [FirstOccurrences.mem_keys_firsts]
      split_ifs <;> rfl

theorem nodup_notes (items : List Item) :
    ((items.foldl (note name change) []).map Prod.fst).Nodup := by
  rw [keys_notes]
  exact FirstOccurrences.nodup_keys_firsts name items

end Items

end OrderedMap
