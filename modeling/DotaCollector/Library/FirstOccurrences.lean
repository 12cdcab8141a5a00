import Mathlib.Data.List.Induction
import Mathlib.Data.List.Nodup

/-!
# First occurrences

Of the rows with one key only the first is kept. Reading one row more keeps it exactly when no
row before it has its key, so what is kept of a list begins with what is kept of its front.
Items are added to rows which are stored in the same way.
-/

namespace FirstOccurrences

variable {Row Key : Type*} [DecidableEq Key] {key : Row → Key} {rows : List Row}

/-- The rows which have no row of their key before them, in their order. -/
def firsts (key : Row → Key) (rows : List Row) : List Row :=
  rows.zipIdx.filterMap fun (row, place) =>
    if key row ∈ (rows.take place).map key then none else some row

theorem firsts_append_singleton (key : Row → Key) (rows : List Row) (row : Row) :
    firsts key (rows ++ [row]) =
      firsts key rows ++ if key row ∈ rows.map key then [] else [row] := by
  have front : ∀ entry ∈ rows.zipIdx,
      (if key entry.1 ∈ ((rows ++ [row]).take entry.2).map key then none else some entry.1) =
        if key entry.1 ∈ (rows.take entry.2).map key then none else some entry.1 := by
    intro entry member
    have inside : entry.2 < rows.length := (List.mem_zipIdx' member).1
    rw [List.take_append_of_le_length (Nat.le_of_lt inside)]
  rw [firsts, List.zipIdx_append, List.filterMap_append, List.filterMap_congr front]
  congr 1
  simp only [List.zipIdx_singleton, List.filterMap_cons, List.filterMap_nil, Nat.zero_add,
    List.take_left']
  split_ifs <;> rfl

theorem mem_keys_firsts {name : Key} : name ∈ (firsts key rows).map key ↔ name ∈ rows.map key := by
  induction rows using List.reverseRecOn with
  | nil => rfl
  | append_singleton rows row ih =>
      rw [firsts_append_singleton, List.map_append, List.mem_append, ih, List.map_append,
        List.mem_append]
      split_ifs with known
      · constructor
        · rintro (early | late)
          · exact .inl early
          · cases late
        · rintro (early | late)
          · exact .inl early
          · rw [List.mem_singleton.mp late]
            exact .inl known
      · rfl

theorem nodup_keys_firsts (key : Row → Key) (rows : List Row) :
    ((firsts key rows).map key).Nodup := by
  induction rows using List.reverseRecOn with
  | nil => exact List.nodup_nil
  | append_singleton rows row ih =>
      rw [firsts_append_singleton, List.map_append]
      split_ifs with known
      · rwa [List.map_nil, List.append_nil]
      · refine List.nodup_append.mpr ⟨ih, List.nodup_singleton _, ?_⟩
        rintro name early _ late rfl
        rw [List.mem_singleton.mp late] at early
        exact known (mem_keys_firsts.mp early)

/-- Rows behind the others only add to what is kept. -/
theorem firsts_prefix (key : Row → Key) (front back : List Row) :
    firsts key front <+: firsts key (front ++ back) := by
  induction back using List.reverseRecOn with
  | nil => exact (List.append_nil front).symm ▸ List.prefix_refl _
  | append_singleton back row ih =>
      rw [← List.append_assoc, firsts_append_singleton]
      exact ih.trans (List.prefix_append _ _)

theorem firsts_subset : firsts key rows ⊆ rows := by
  induction rows using List.reverseRecOn with
  | nil => exact List.Subset.refl _
  | append_singleton rows row ih =>
      rw [firsts_append_singleton]
      apply List.append_subset.mpr
      refine ⟨List.subset_append_of_subset_left _ ih, ?_⟩
      split_ifs
      · exact List.nil_subset _
      · exact List.subset_append_right _ _

/-- The first row is kept in its place. -/
theorem firsts_cons (key : Row → Key) (row : Row) (rows : List Row) :
    ∃ tail, firsts key (row :: rows) = row :: tail := by
  obtain ⟨tail, split⟩ := firsts_prefix key [row] rows
  exact ⟨tail, split.symm⟩

/-- Keys which tell the same rows apart. -/
theorem firsts_congr {Name : Type*} [DecidableEq Name] {name : Row → Name}
    (same : ∀ row ∈ rows, ∀ other ∈ rows, key row = key other ↔ name row = name other) :
    firsts key rows = firsts name rows := by
  induction rows using List.reverseRecOn with
  | nil => rfl
  | append_singleton rows row ih =>
      have front : firsts key rows = firsts name rows :=
        ih fun row here other there => same row (List.mem_append_left _ here) other
          (List.mem_append_left _ there)
      have known : key row ∈ rows.map key ↔ name row ∈ rows.map name := by
        simp only [List.mem_map]
        refine exists_congr fun other => and_congr_right fun there => ?_
        exact same other (List.mem_append_left _ there) row
          (List.mem_append_right _ List.mem_cons_self)
      rw [firsts_append_singleton, firsts_append_singleton, front, if_congr known rfl rfl]

example : firsts (· % 10) [3, 14, 23, 4, 5] = [3, 14, 5] := by decide

/-! ## Adding to stored rows -/

section AddNew

variable {Item : Type*} (key : Row → Key) (name : Item → Key) (make : List Row → Item → Row)

/-- An item whose name is the key of no row appends a row. -/
def addNew : List Row → List Item → List Row
  | rows, [] => rows
  | rows, item :: items =>
      if name item ∈ rows.map key then addNew rows items
      else addNew (rows ++ [make rows item]) items

variable {key name make} {items : List Item}

/-- What a new row keeps holds of all rows. -/
theorem addNew_induction {P : List Row → Prop} (start : P rows)
    (step : ∀ rows, ∀ item ∈ items, name item ∉ rows.map key → P rows →
      P (rows ++ [make rows item])) :
    P (addNew key name make rows items) := by
  induction items generalizing rows with
  | nil => exact start
  | cons item items ih =>
      rw [addNew]
      split_ifs with known
      · exact ih start fun rows other listed => step rows other (List.mem_cons_of_mem _ listed)
      · exact ih (step rows item List.mem_cons_self known start)
          fun rows other listed => step rows other (List.mem_cons_of_mem _ listed)

theorem prefix_addNew : rows <+: addNew key name make rows items :=
  addNew_induction (List.prefix_refl rows) fun _ _ _ _ early => early.trans (List.prefix_append _ _)

/-- Each added row has been made of an item. -/
theorem mem_addNew {row : Row} (found : row ∈ addNew key name make rows items) :
    row ∈ rows ∨ ∃ item ∈ items, ∃ before, row = make before item := by
  have all : ∀ row ∈ addNew key name make rows items,
      row ∈ rows ∨ ∃ item ∈ items, ∃ before, row = make before item := by
    refine addNew_induction (P := fun after => ∀ row ∈ after, row ∈ rows ∨ ∃ item ∈ items,
      ∃ before, row = make before item) (fun row stored => .inl stored) ?_
    intro before item listed _ early row found
    rcases List.mem_append.mp found with found | found
    · exact early row found
    · exact .inr ⟨item, listed, before, List.mem_singleton.mp found⟩
  exact all row found

variable (name) in
/-- Each item finds its name afterwards. -/
theorem name_mem_addNew (named : ∀ rows item, key (make rows item) = name item) {item : Item}
    (listed : item ∈ items) : name item ∈ (addNew key name make rows items).map key := by
  induction items generalizing rows with
  | nil => cases listed
  | cons first items ih =>
      rw [addNew]
      rcases List.mem_cons.mp listed with rfl | later
      · split_ifs with known
        · exact (prefix_addNew.map key).subset known
        · refine (prefix_addNew.map key).subset ?_
          rw [List.map_append, List.map_singleton, named]
          exact List.mem_append_right _ List.mem_cons_self
      · split_ifs
        · exact ih later
        · exact ih later

theorem addNew_eq_self (known : ∀ item ∈ items, name item ∈ rows.map key) :
    addNew key name make rows items = rows := by
  induction items with
  | nil => rfl
  | cons item items ih =>
      rw [addNew, if_pos (known item List.mem_cons_self)]
      exact ih fun other listed => known other (List.mem_cons_of_mem _ listed)

end AddNew

end FirstOccurrences
