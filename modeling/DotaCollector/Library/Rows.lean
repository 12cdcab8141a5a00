import Mathlib.Data.List.Nodup

/-!
# Finite tables with a unique key

The rows of a table stand in a list in which no key occurs twice. Where a query counts or sorts
rows, the list is what it goes through; a statement on one key touches at most one row, so it
changes a count by at most one.
-/

/-- The rows of a table, no two of which have the same key. -/
structure Rows {Key Row : Type*} (key : Row → Key) where
  list : List Row := []
  nodup : (list.map key).Nodup := by simp

namespace Rows

variable {Key Row : Type*} {key : Row → Key}

/-- `SELECT count(*) … WHERE chosen`. -/
def count (table : Rows key) (chosen : Row → Bool) : Nat := table.list.countP chosen

/-- Two rows with one key are the same row. -/
theorem eq_of_key_eq (table : Rows key) {row other : Row} (here : row ∈ table.list)
    (there : other ∈ table.list) (same : key row = key other) : row = other :=
  List.inj_on_of_nodup_map table.nodup here there same

variable [DecidableEq Key]

/-- `SELECT … WHERE key = …`. -/
def find? (table : Rows key) (wanted : Key) : Option Row := table.list.find? (key · = wanted)

theorem find?_eq_some_iff {table : Rows key} {wanted : Key} {row : Row} :
    table.find? wanted = some row ↔ row ∈ table.list ∧ key row = wanted := by
  constructor
  · intro found
    refine ⟨List.mem_of_find?_eq_some found, ?_⟩
    simpa using List.find?_some found
  · rintro ⟨here, rfl⟩
    cases found : table.find? (key row) with
    | none =>
        have missing := List.find?_eq_none.mp found row here
        simp at missing
    | some other =>
        have same : key other = key row := by simpa using List.find?_some found
        rw [table.eq_of_key_eq (List.mem_of_find?_eq_some found) here same]

/-- `UPDATE … SET … WHERE key = …`, of columns which are not in the key. -/
def update (table : Rows key) (wanted : Key) (set : Row → Row)
    (same : ∀ row, key (set row) = key row) :
    Rows key where
  list := table.list.map fun row => if key row = wanted then set row else row
  nodup := by
    have keys : (table.list.map fun row => if key row = wanted then set row else row).map key =
        table.list.map key := by
      rw [List.map_map]
      apply List.map_congr_left
      intro row _
      rw [Function.comp_apply]
      split_ifs
      · exact same row
      · rfl
    rw [keys]
    exact table.nodup

/-- `INSERT … ON CONFLICT DO NOTHING`. -/
def insertNew (table : Rows key) (row : Row) : Rows key :=
  if absent : key row ∈ table.list.map key then table
  else
    { list := table.list ++ [row]
      nodup := by
        rw [List.map_append, List.map_singleton, List.nodup_append]
        refine ⟨table.nodup, List.nodup_singleton _, ?_⟩
        intro left there right here same
        rw [same, List.mem_singleton.mp here] at there
        exact absent there }

variable {table : Rows key} {wanted : Key} {set : Row → Row}
  (same : ∀ row, key (set row) = key row) {chosen : Row → Bool}

theorem find?_update {other : Key} : (table.update wanted set same).find? other =
    (table.find? other).map fun row => if other = wanted then set row else row := by
  have keys : ((fun row => decide (key row = other)) ∘
      fun row => if key row = wanted then set row else row) = fun row => key row = other := by
    funext row
    rw [Function.comp_apply]
    split_ifs
    · rw [same]
    · rfl
  unfold find? update
  rw [List.find?_map, keys]
  cases found : table.list.find? (key · = other) with
  | none => rfl
  | some row =>
      have hit : key row = other := by simpa using List.find?_some found
      rw [Option.map_some, Option.map_some, hit]

theorem find?_insertNew {table : Rows key} (row : Row) (wanted : Key) :
    (table.insertNew row).find? wanted =
      (table.find? wanted).or (if key row = wanted then some row else none) := by
  unfold insertNew
  split
  · next present =>
      obtain ⟨other, listed, same⟩ := List.mem_map.mp present
      cases found : table.find? wanted with
      | some other => rfl
      | none =>
          rw [if_neg, Option.none_or]
          rintro rfl
          exact absurd (find?_eq_some_iff.mpr ⟨listed, same⟩) (by rw [found]; nofun)
  · unfold find?
    rw [List.find?_append, List.find?_singleton]
    simp

/-- A count which the statement can only lower on the row it touches. -/
theorem count_update_le (falls : ∀ row, chosen (set row) = true → chosen row = true) :
    (table.update wanted set same).count chosen ≤ table.count chosen := by
  unfold count update
  rw [List.countP_map]
  apply List.countP_mono_left
  intro row _ counted
  rw [Function.comp_apply] at counted
  split_ifs at counted
  · exact falls row counted
  · exact counted

/-- A count which the statement does not lower. -/
theorem le_count_update
    (kept : ∀ row ∈ table.list, key row = wanted → chosen row = true → chosen (set row) = true) :
    table.count chosen ≤ (table.update wanted set same).count chosen := by
  unfold count update
  rw [List.countP_map]
  apply List.countP_mono_left
  intro row there counted
  rw [Function.comp_apply]
  split_ifs with hit
  · exact kept row there hit counted
  · exact counted

/-- The statement touches at most one row. -/
theorem count_update_le_succ :
    (table.update wanted set same).count chosen ≤ table.count chosen + 1 := by
  have touched : ∀ rows : List Row, (rows.map key).Nodup →
      (rows.map fun row => if key row = wanted then set row else row).countP chosen ≤
        rows.countP chosen + 1 := by
    intro rows distinct
    induction rows with
    | nil => simp
    | cons row rows ih =>
        rw [List.map_cons, List.nodup_cons] at distinct
        obtain ⟨fresh, distinct⟩ := distinct
        rw [List.map_cons, List.countP_cons, List.countP_cons]
        by_cases hit : key row = wanted
        · have untouched :
              (rows.map fun row => if key row = wanted then set row else row) = rows := by
            refine (List.map_congr_left fun other there => if_neg fun same => fresh ?_).trans
              (List.map_id rows)
            rw [hit, ← same]
            exact List.mem_map_of_mem there
          rw [untouched]
          split_ifs <;> omega
        · rw [if_neg hit]
          have rest := ih distinct
          omega
  exact touched table.list table.nodup

theorem count_insertNew (row : Row) (spared : chosen row = false) :
    (table.insertNew row).count chosen = table.count chosen := by
  unfold insertNew
  split
  · rfl
  · unfold count
    dsimp only
    rw [List.countP_append, List.countP_singleton, spared]
    rfl

end Rows
