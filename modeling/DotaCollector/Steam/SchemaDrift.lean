import DotaCollector.Library.FirstOccurrences
import DotaCollector.Library.JsonText

/-!
# Drift of the Steam API

Every answer of the Steam API is compared with the shape which is expected of it. The walk goes
through the objects and the items of arrays for which there is a shape, and reports the paths of
properties which are not expected and of required ones which are missing.
-/

namespace DotaCollector
namespace Steam
namespace SchemaDrift

open JsonText (ascii)

/-- The properties which an object may or must have, and the shapes of some of their values. -/
inductive DriftSpec where
  | mk (required optional : List JsonText.Text) (objects arrays : List (JsonText.Text × DriftSpec))

namespace DriftSpec

def required : DriftSpec → List JsonText.Text
  | mk required _ _ _ => required

def optional : DriftSpec → List JsonText.Text
  | mk _ optional _ _ => optional

def objects : DriftSpec → List (JsonText.Text × DriftSpec)
  | mk _ _ objects _ => objects

def arrays : DriftSpec → List (JsonText.Text × DriftSpec)
  | mk _ _ _ arrays => arrays

@[elab_as_elim]
theorem induction {P : DriftSpec → Prop} (mk : ∀ required optional objects arrays,
    (∀ entry ∈ objects, P entry.2) → (∀ entry ∈ arrays, P entry.2) →
      P (.mk required optional objects arrays)) : ∀ spec, P spec := by
  intro spec
  refine @DriftSpec.rec P (fun entries => ∀ entry ∈ entries, P entry.2) (fun entry => P entry.2)
    ?_ ?_ ?_ (fun _ _ child => child) spec
  · exact fun required optional objects arrays inner items => mk _ _ _ _ inner items
  · exact List.forall_mem_nil _
  · exact fun entry entries first rest => List.forall_mem_cons.mpr ⟨first, rest⟩

def knownKeys (spec : DriftSpec) : List JsonText.Text :=
  spec.required ++ spec.optional ++ spec.objects.map Prod.fst ++ spec.arrays.map Prod.fst

def has (spec : DriftSpec) (key : JsonText.Text) : Bool := spec.knownKeys.any (· = key)

theorem has_iff {spec : DriftSpec} {key : JsonText.Text} :
    spec.has key = true ↔ key ∈ spec.knownKeys := by
  simp [has]

end DriftSpec

structure Drift where
  extra : List JsonText.Text := []
  missing : List JsonText.Text := []

instance : Append Drift := ⟨fun first second =>
  ⟨first.extra ++ second.extra, first.missing ++ second.missing⟩⟩

variable {Number : Type}

/-- The properties of an object; no name comes twice. -/
abbrev Properties (Number : Type) := List (JsonText.Text × JsonText.Value Number)

def hasOwn (rec : Properties Number) (key : JsonText.Text) : Bool := rec.any (·.1 = key)

def property (rec : Properties Number) (key : JsonText.Text) : Option (JsonText.Value Number) :=
  (rec.find? (·.1 = key)).map Prod.snd

def joinPath (path key : JsonText.Text) : JsonText.Text :=
  if path = [] then key else path ++ ascii "." ++ key

def itemPath (path key : JsonText.Text) (i : Nat) : JsonText.Text :=
  joinPath path key ++ ascii ("[" ++ toString i ++ "]")

/-- What is wrong with a value itself. -/
def drift (spec : DriftSpec) (value : JsonText.Value Number) (path : JsonText.Text) : Drift :=
  match value with
  | .object rec =>
      { extra := ((rec.map Prod.fst).filter (!spec.has ·)).map (joinPath path)
        missing := (spec.required.filter (!hasOwn rec ·)).map (joinPath path) }
  | _ => { missing := spec.required.map (joinPath path) }

def isNull : JsonText.Value Number → Bool
  | .null => true
  | _ => false

def concat (drifts : List Drift) : Drift := drifts.foldr (· ++ ·) {}

mutual

def walk : DriftSpec → JsonText.Value Number → JsonText.Text → Drift
  | .mk required optional objects arrays, value, path =>
      drift (.mk required optional objects arrays) value path ++
        match value with
        | .object rec => walkObjects objects rec path ++ walkArrays arrays rec path
        | _ => {}

def walkObjects : List (JsonText.Text × DriftSpec) → Properties Number → JsonText.Text → Drift
  | [], _, _ => {}
  | (key, child) :: objects, rec, path =>
      (match property rec key with
        | none => {}
        | some value => if isNull value then {} else walk child value (joinPath path key)) ++
        walkObjects objects rec path

def walkArrays : List (JsonText.Text × DriftSpec) → Properties Number → JsonText.Text → Drift
  | [], _, _ => {}
  | (key, child) :: arrays, rec, path =>
      (match property rec key with
        | some (.array items) =>
            concat (items.zipIdx.map fun (item, i) => walk child item (itemPath path key i))
        | _ => {}) ++
        walkArrays arrays rec path

end

def unique (texts : List JsonText.Text) : List JsonText.Text := FirstOccurrences.firsts id texts

def findSchemaDrift (value : JsonText.Value Number) (spec : DriftSpec) : Option Drift :=
  let found := walk spec value []
  if unique found.extra = [] ∧ unique found.missing = [] then none
  else some { extra := unique found.extra, missing := unique found.missing }

/-! ## What is compared -/

/-- A value inside another one for which the shape of that one holds a shape. -/
inductive Reaches : DriftSpec → JsonText.Value Number → JsonText.Text → DriftSpec →
    JsonText.Value Number → JsonText.Text → Prop
  | here (spec : DriftSpec) (value : JsonText.Value Number) (path : JsonText.Text) :
      Reaches spec value path spec value path
  | inner {spec child inside : DriftSpec} {rec : Properties Number} {path key place : JsonText.Text}
      {value found : JsonText.Value Number} (listed : (key, child) ∈ spec.objects)
      (has : property rec key = some value) (known : isNull value = false)
      (rest : Reaches child value (joinPath path key) inside found place) :
      Reaches spec (.object rec) path inside found place
  | item {spec child inside : DriftSpec} {rec : Properties Number} {path key place : JsonText.Text}
      {items : List (JsonText.Value Number)} {i : Nat} {value found : JsonText.Value Number}
      (listed : (key, child) ∈ spec.arrays) (has : property rec key = some (.array items))
      (at_index : items[i]? = some value)
      (rest : Reaches child value (itemPath path key i) inside found place) :
      Reaches spec (.object rec) path inside found place

/-- One of the two lists of a drift. -/
structure Side (side : Drift → List JsonText.Text) : Prop where
  empty : side {} = []
  append : ∀ first second, side (first ++ second) = side first ++ side second

theorem extra_side : Side Drift.extra := ⟨rfl, fun _ _ => rfl⟩

theorem missing_side : Side Drift.missing := ⟨rfl, fun _ _ => rfl⟩

/-- What the walk reports of the values inside a value. -/
def below (spec : DriftSpec) (value : JsonText.Value Number) (path : JsonText.Text) : Drift :=
  match value with
  | .object rec => walkObjects spec.objects rec path ++ walkArrays spec.arrays rec path
  | _ => {}

theorem walk_eq (spec : DriftSpec) (value : JsonText.Value Number) (path : JsonText.Text) :
    walk spec value path = drift spec value path ++ below spec value path := by
  cases spec
  cases value <;> simp only [walk] <;> rfl

section Sides

variable {side : Drift → List JsonText.Text} {text : JsonText.Text}

theorem Side.mem_concat (lists : Side side) {drifts : List Drift} :
    text ∈ side (concat drifts) ↔ ∃ drift ∈ drifts, text ∈ side drift := by
  induction drifts with
  | nil => simp [concat, lists.empty]
  | cons first drifts ih =>
      have split : concat (first :: drifts) = first ++ concat drifts := rfl
      rw [split, lists.append, List.mem_append, ih, List.exists_mem_cons_iff]

theorem Side.mem_walkObjects (lists : Side side) {objects : List (JsonText.Text × DriftSpec)}
    {rec : Properties Number} {path : JsonText.Text} :
    text ∈ side (walkObjects objects rec path) ↔ ∃ entry ∈ objects, ∃ value,
      property rec entry.1 = some value ∧ isNull value = false ∧
        text ∈ side (walk entry.2 value (joinPath path entry.1)) := by
  induction objects with
  | nil => simp [walkObjects, lists.empty]
  | cons entry objects ih =>
      obtain ⟨key, child⟩ := entry
      rw [walkObjects, lists.append, List.mem_append, ih, List.exists_mem_cons_iff]
      refine or_congr ?_ Iff.rfl
      cases found : property rec key with
      | none => simp [lists.empty]
      | some value =>
          dsimp only
          split_ifs with null
          · simp [null, lists.empty]
          · simp [null]

theorem Side.mem_walkArrays (lists : Side side) {arrays : List (JsonText.Text × DriftSpec)}
    {rec : Properties Number} {path : JsonText.Text} :
    text ∈ side (walkArrays arrays rec path) ↔ ∃ entry ∈ arrays, ∃ items,
      property rec entry.1 = some (.array items) ∧ ∃ i value, items[i]? = some value ∧
        text ∈ side (walk entry.2 value (itemPath path entry.1 i)) := by
  induction arrays with
  | nil => simp [walkArrays, lists.empty]
  | cons entry arrays ih =>
      obtain ⟨key, child⟩ := entry
      rw [walkArrays, lists.append, List.mem_append, ih, List.exists_mem_cons_iff]
      refine or_congr ?_ Iff.rfl
      split
      · next items found =>
        rw [lists.mem_concat]
        constructor
        · rintro ⟨drift, member, inside⟩
          obtain ⟨⟨value, i⟩, placed, rfl⟩ := List.mem_map.mp member
          exact ⟨items, found, i, value, List.mk_mem_zipIdx_iff_getElem?.mp placed, inside⟩
        · rintro ⟨others, same, i, value, placed, inside⟩
          cases found.symm.trans same
          exact ⟨_, List.mem_map.mpr ⟨(value, i), List.mk_mem_zipIdx_iff_getElem?.mpr placed, rfl⟩,
            inside⟩
      · next other =>
        rw [lists.empty]
        refine iff_of_false List.not_mem_nil ?_
        rintro ⟨items, found, -⟩
        exact other items found

/-- The walk reports what is wrong with the values it reaches, and nothing else. -/
theorem Side.mem_walk (lists : Side side) (spec : DriftSpec) {value : JsonText.Value Number}
    {path : JsonText.Text} :
    text ∈ side (walk spec value path) ↔ ∃ inside found place,
      Reaches spec value path inside found place ∧ text ∈ side (drift inside found place) := by
  induction spec using DriftSpec.induction generalizing value path with
  | mk required optional objects arrays inner items =>
      rw [walk_eq, lists.append, List.mem_append]
      constructor
      · rintro (own | deeper)
        · exact ⟨_, _, _, .here _ _ _, own⟩
        · unfold below at deeper
          split at deeper
          · next rec =>
            rw [lists.append, List.mem_append, lists.mem_walkObjects,
              lists.mem_walkArrays] at deeper
            rcases deeper with ⟨entry, listed, child, has, known, inside⟩ |
              ⟨entry, listed, values, has, i, child, placed, inside⟩
            · obtain ⟨deep, found, place, reaches, wrong⟩ := (inner entry listed).mp inside
              exact ⟨deep, found, place, .inner listed has known reaches, wrong⟩
            · obtain ⟨deep, found, place, reaches, wrong⟩ := (items entry listed).mp inside
              exact ⟨deep, found, place, .item listed has placed reaches, wrong⟩
          · rw [lists.empty] at deeper
            cases deeper
      · rintro ⟨inside, found, place, reaches, wrong⟩
        cases reaches with
        | here => exact .inl wrong
        | inner listed has known rest =>
            refine .inr ?_
            rw [below, lists.append, List.mem_append, lists.mem_walkObjects]
            exact .inl ⟨_, listed, _, has, known, (inner _ listed).mpr ⟨_, _, _, rest, wrong⟩⟩
        | item listed has placed rest =>
            refine .inr ?_
            rw [below, lists.append, List.mem_append, lists.mem_walkArrays]
            exact .inr ⟨_, listed, _, has, _, _, placed,
              (items _ listed).mpr ⟨_, _, _, rest, wrong⟩⟩

end Sides

/-! ## What is reported -/

/-- A property which the shape does not know. -/
def Unexpected (spec : DriftSpec) (value : JsonText.Value Number) (path text : JsonText.Text) :
    Prop :=
  ∃ rec, value = .object rec ∧
    ∃ key ∈ rec.map Prod.fst, key ∉ spec.knownKeys ∧ text = joinPath path key

/-- A required property which the value does not have. -/
def Lacking (spec : DriftSpec) (value : JsonText.Value Number) (path text : JsonText.Text) : Prop :=
  ∃ key ∈ spec.required, (∀ rec, value = .object rec → key ∉ rec.map Prod.fst) ∧
    text = joinPath path key

theorem mem_extra_drift {spec : DriftSpec} {value : JsonText.Value Number}
    {path text : JsonText.Text} :
    text ∈ (drift spec value path).extra ↔ Unexpected spec value path text := by
  unfold drift Unexpected
  split
  · next rec =>
    simp only [List.mem_map, List.mem_filter, Bool.not_eq_true', ← Bool.not_eq_true,
      DriftSpec.has_iff]
    constructor
    · rintro ⟨key, ⟨listed, strange⟩, rfl⟩
      exact ⟨rec, rfl, key, listed, strange, rfl⟩
    · rintro ⟨_, ⟨⟩, key, listed, strange, rfl⟩
      exact ⟨key, ⟨listed, strange⟩, rfl⟩
  · next other =>
    refine iff_of_false List.not_mem_nil ?_
    rintro ⟨rec, object, -⟩
    exact other rec object

theorem hasOwn_iff {rec : Properties Number} {key : JsonText.Text} :
    hasOwn rec key = true ↔ key ∈ rec.map Prod.fst := by
  rw [hasOwn, List.any_eq_true, List.mem_map]
  exact exists_congr fun entry => and_congr Iff.rfl decide_eq_true_iff

theorem mem_missing_drift {spec : DriftSpec} {value : JsonText.Value Number}
    {path text : JsonText.Text} :
    text ∈ (drift spec value path).missing ↔ Lacking spec value path text := by
  unfold drift Lacking
  split
  · next rec =>
    simp only [List.mem_map, List.mem_filter, Bool.not_eq_true', ← Bool.not_eq_true, hasOwn_iff]
    constructor
    · rintro ⟨key, ⟨required, absent⟩, rfl⟩
      refine ⟨key, required, ?_, rfl⟩
      rintro _ ⟨⟩
      exact absent
    · rintro ⟨key, required, absent, rfl⟩
      exact ⟨key, ⟨required, absent rec rfl⟩, rfl⟩
  · next other =>
    rw [List.mem_map]
    constructor
    · rintro ⟨key, required, rfl⟩
      exact ⟨key, required, fun rec object => absurd object (other rec), rfl⟩
    · rintro ⟨key, required, -, rfl⟩
      exact ⟨key, required, rfl⟩

theorem mem_unique {text : JsonText.Text} {texts : List JsonText.Text} :
    text ∈ unique texts ↔ text ∈ texts := by
  have keys : text ∈ (FirstOccurrences.firsts id texts).map id ↔ text ∈ texts.map id :=
    FirstOccurrences.mem_keys_firsts
  rwa [List.map_id, List.map_id] at keys

theorem nodup_unique (texts : List JsonText.Text) : (unique texts).Nodup := by
  have keys := FirstOccurrences.nodup_keys_firsts id texts
  rwa [List.map_id] at keys

theorem findSchemaDrift_eq_some {value : JsonText.Value Number} {spec : DriftSpec} {report : Drift}
    (found : findSchemaDrift value spec = some report) :
    report = ⟨unique (walk spec value []).extra, unique (walk spec value []).missing⟩ ∧
      ¬ (report.extra = [] ∧ report.missing = []) := by
  rw [findSchemaDrift] at found
  split_ifs at found with empty
  cases found
  exact ⟨rfl, empty⟩

/-- What is found in one of the lists is reported, for an empty report is none at all. -/
theorem mem_report {value : JsonText.Value Number} {spec : DriftSpec} {text : JsonText.Text}
    {side : Drift → List JsonText.Text} (own : side = Drift.extra ∨ side = Drift.missing) :
    text ∈ side (walk spec value []) ↔
      ∃ report ∈ findSchemaDrift value spec, text ∈ side report := by
  constructor
  · intro found
    have some : ¬ (unique (walk spec value []).extra = [] ∧
        unique (walk spec value []).missing = []) := by
      rintro ⟨extra, missing⟩
      rcases own with rfl | rfl
      · rw [← mem_unique, extra] at found
        cases found
      · rw [← mem_unique, missing] at found
        cases found
    refine ⟨_, if_neg some, ?_⟩
    rcases own with rfl | rfl
    · exact mem_unique.mpr found
    · exact mem_unique.mpr found
  · rintro ⟨report, found, inside⟩
    obtain ⟨rfl, -⟩ := findSchemaDrift_eq_some found
    rcases own with rfl | rfl
    · exact mem_unique.mp inside
    · exact mem_unique.mp inside

/-- A shape is compared with a value and with whatever is inside it for which there is a shape. The
unexpected properties and the missing ones of all these are reported, each path once, and there is
no report if and only if they have none. -/
theorem findSchemaDrift_reports (value : JsonText.Value Number) (spec : DriftSpec) :
    (∀ text, (∃ inside found place, Reaches spec value [] inside found place ∧
      Unexpected inside found place text) ↔
        ∃ report ∈ findSchemaDrift value spec, text ∈ report.extra) ∧
    (∀ text, (∃ inside found place, Reaches spec value [] inside found place ∧
      Lacking inside found place text) ↔
        ∃ report ∈ findSchemaDrift value spec, text ∈ report.missing) ∧
    (∀ report ∈ findSchemaDrift value spec, report.extra.Nodup ∧ report.missing.Nodup ∧
      ¬ (report.extra = [] ∧ report.missing = [])) := by
  refine ⟨fun text => ?_, fun text => ?_, fun report found => ?_⟩
  · rw [← mem_report (.inl rfl), extra_side.mem_walk]
    simp only [mem_extra_drift]
  · rw [← mem_report (.inr rfl), missing_side.mem_walk]
    simp only [mem_missing_drift]
  · obtain ⟨rfl, nonempty⟩ := findSchemaDrift_eq_some found
    exact ⟨nodup_unique _, nodup_unique _, nonempty⟩

end SchemaDrift
end Steam
end DotaCollector
