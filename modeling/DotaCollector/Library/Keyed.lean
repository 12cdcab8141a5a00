import Mathlib.Data.List.Infix
import Mathlib.Data.List.Nodup

/-!
# Families of cells, each driven by its own items

A state holds a value for every key, and an item changes the value of its own key only. What a
list of items has done to one value is then what the items of that key do in their order, however
they are mixed with the items of other keys. When the items also write rows, the rows of a key are
those which its items write by themselves.
-/

namespace Keyed

variable {State Item Key Value Row : Type*} [DecidableEq Key]

/-- An item changes the value of its own key, and leaves the others. -/
structure Cells (step : State → Item → State) (look : State → Key → Value) (key : Item → Key)
    (change : Value → Item → Value) : Prop where
  own : ∀ state item, look (step state item) (key item) = change (look state (key item)) item
  other : ∀ state item place, place ≠ key item → look (step state item) place = look state place

section Values

variable {step : State → Item → State} {look : State → Key → Value} {key : Item → Key}
  {change : Value → Item → Value}

/-- The value of a key depends on the items of that key. -/
theorem Cells.look_foldl (cells : Cells step look key change) (state : State) (items : List Item)
    (place : Key) : look (items.foldl step state) place =
      (items.filter (key · = place)).foldl change (look state place) := by
  induction items generalizing state with
  | nil => rfl
  | cons item items ih =>
      rw [List.foldl_cons, ih, List.filter_cons]
      by_cases mine : key item = place
      · subst mine
        rw [cells.own, if_pos (decide_eq_true rfl), List.foldl_cons]
      · rw [cells.other state item place (Ne.symm mine), if_neg (by simpa using mine)]

theorem Cells.look_foldl_of_not_mem (cells : Cells step look key change) (state : State)
    {items : List Item} {place : Key} (absent : place ∉ items.map key) :
    look (items.foldl step state) place = look state place := by
  have none : items.filter (key · = place) = [] := by
    rw [List.filter_eq_nil_iff]
    intro item member same
    exact absent (List.mem_map.mpr ⟨item, member, of_decide_eq_true same⟩)
  rw [cells.look_foldl, none]
  rfl

/-- Where no key comes twice, an item finds the value as it was at the beginning. -/
theorem Cells.look_foldl_of_nodup (cells : Cells step look key change) (state : State)
    {items : List Item} (nodup : (items.map key).Nodup) {item : Item} (member : item ∈ items) :
    look (items.foldl step state) (key item) = change (look state (key item)) item := by
  induction items generalizing state with
  | nil => cases member
  | cons first items ih =>
      rw [List.map_cons, List.nodup_cons] at nodup
      rw [List.foldl_cons]
      rcases List.mem_cons.mp member with rfl | later
      · rw [cells.look_foldl_of_not_mem _ nodup.1]
        exact cells.own state item
      · rw [ih (step state first) nodup.2 later, cells.other]
        intro same
        exact nodup.1 (same ▸ List.mem_map_of_mem later)

end Values

/-! ## Rows -/

/-- Run a machine over its items, with the rows it writes. -/
def transduce (emit : Value → Item → Value × List Row) : Value → List Item → Value × List Row
  | value, [] => (value, [])
  | value, item :: items =>
      let next := emit value item
      let rest := transduce emit next.1 items
      (rest.1, next.2 ++ rest.2)

/-- What is left of a step without its rows. -/
def advance (emit : Value → Item → Value × List Row) (value : Value) (item : Item) : Value :=
  (emit value item).1

variable {emit : Value → Item → Value × List Row}

theorem transduce_fst (value : Value) (items : List Item) :
    (transduce emit value items).1 = items.foldl (advance emit) value := by
  induction items generalizing value with
  | nil => rfl
  | cons item items ih => exact ih _

/-- Every item writes its rows at the value which the items before it have left. -/
theorem transduce_snd (value : Value) (items : List Item) : (transduce emit value items).2 =
    (items.inits.zip items).flatMap
      fun (before, item) => (emit (before.foldl (advance emit) value) item).2 := by
  induction items generalizing value with
  | nil => rfl
  | cons item items ih =>
      simp only [transduce]
      rw [ih, List.inits_cons, List.zip_cons_cons, List.flatMap_cons, List.zip_map_left,
        List.flatMap_map]
      rfl

/-- One machine for each key, all of them the same, each fed with the items of its key. -/
def family (key : Item → Key) (emit : Value → Item → Value × List Row) (values : Key → Value)
    (item : Item) : (Key → Value) × List Row :=
  let next := emit (values (key item)) item
  (fun place => if place = key item then next.1 else values place, next.2)

theorem family_cells (key : Item → Key) (emit : Value → Item → Value × List Row) :
    Cells (advance (family key emit)) (fun values place => values place) key (advance emit) where
  own _ _ := if_pos rfl
  other _ _ _ ne := if_neg ne

theorem transduce_family_own {key : Item → Key} (values : Key → Value) {items : List Item}
    (nodup : (items.map key).Nodup) {item : Item} (member : item ∈ items) :
    (transduce (family key emit) values items).1 (key item) =
      advance emit (values (key item)) item := by
  rw [transduce_fst]
  exact (family_cells key emit).look_foldl_of_nodup values nodup member

theorem transduce_family_other {key : Item → Key} (values : Key → Value) {items : List Item}
    {place : Key} (absent : place ∉ items.map key) :
    (transduce (family key emit) values items).1 place = values place := by
  rw [transduce_fst]
  exact (family_cells key emit).look_foldl_of_not_mem values absent

/-- Where no key comes twice, every machine writes as it does by itself. -/
theorem transduce_family_of_nodup {key : Item → Key} (values : Key → Value) {items : List Item}
    (nodup : (items.map key).Nodup) : (transduce (family key emit) values items).2 =
      items.flatMap fun item => (emit (values (key item)) item).2 := by
  induction items generalizing values with
  | nil => rfl
  | cons item items ih =>
      rw [List.map_cons, List.nodup_cons] at nodup
      simp only [transduce]
      rw [ih _ nodup.2, List.flatMap_cons]
      congr 1
      apply List.flatMap_congr
      intro later member
      have ne : key later ≠ key item := fun same =>
        nodup.1 (same ▸ List.mem_map_of_mem member)
      exact congrArg (fun value => (emit value later).2)
        ((family_cells key emit).other values item _ ne)

end Keyed
