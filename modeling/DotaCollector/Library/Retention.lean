import Mathlib.Data.List.Basic
import Mathlib.Data.List.Pairwise

/-!
# Tables which keep the newest rows

A table of numbered rows, of which a `DELETE` keeps the newest ones of a kind: the rows below the
lowest number among the newest are removed. Listed from the newest to the oldest, what is left of
the kind is the beginning of what there was, and nothing else is touched.
-/

namespace Retention

variable {Row : Type*} {id : Row → Nat} {rows : List Row} {chosen other : Row → Bool}
  {window : Nat}

/-- `ORDER BY id DESC`. -/
def newestFirst (id : Row → Nat) (rows : List Row) : List Row :=
  rows.mergeSort fun left right => id right ≤ id left

/-- `SELECT COALESCE(MIN(id), 0)` of the newest rows, at most `window`. -/
def horizon (id : Row → Nat) (window : Nat) (rows : List Row) : Nat :=
  (((newestFirst id rows).take window).map id).min?.getD 0

/-- `DELETE … WHERE chosen AND id < horizon`. -/
def prune (id : Row → Nat) (window : Nat) (chosen : Row → Bool) (rows : List Row) : List Row :=
  rows.filter fun row => !(chosen row && id row < horizon id window (rows.filter chosen))

/-- The rows stand from the newest to the oldest, each under a number of its own. -/
def Descending (id : Row → Nat) (rows : List Row) : Prop :=
  rows.Pairwise fun newer older => id older < id newer

theorem Descending.filter (descending : Descending id rows) (chosen : Row → Bool) :
    Descending id (rows.filter chosen) :=
  List.Pairwise.filter chosen descending

theorem Descending.newestFirst (descending : Descending id rows) : newestFirst id rows = rows := by
  refine List.mergeSort_of_pairwise (List.Pairwise.imp ?_ descending)
  intro newer older below
  simpa using Nat.le_of_lt below

/-- The rows which are not below the lowest number of the newest ones are these. -/
theorem Descending.filter_horizon (descending : Descending id rows) (positive : 0 < window) :
    rows.filter (fun row => !decide (id row < horizon id window rows)) = rows.take window := by
  rw [horizon, descending.newestFirst]
  cases found : ((rows.take window).map id).min? with
  | none =>
      have empty := List.min?_eq_none_iff.mp found
      have noRows : rows = [] := by
        rcases List.take_eq_nil_iff.mp (List.map_eq_nil_iff.mp empty) with zero | noRows
        · omega
        · exact noRows
      simp [noRows]
  | some lowest =>
      obtain ⟨attained, least⟩ := List.min?_eq_some_iff.mp found
      obtain ⟨oldest, kept, rfl⟩ := List.mem_map.mp attained
      have apart : ∀ row ∈ rows.drop window, id row < id oldest := by
        rw [← List.take_append_drop window rows] at descending
        intro row dropped
        exact (List.pairwise_append.mp descending).2.2 oldest kept row dropped
      nth_rewrite 1 [← List.take_append_drop window rows]
      rw [List.filter_append, Option.getD_some]
      have inside : (rows.take window).filter (fun row => !decide (id row < id oldest)) =
          rows.take window :=
        List.filter_eq_self.mpr fun row member => by
          simpa using least (id row) (List.mem_map_of_mem member)
      have outside : (rows.drop window).filter (fun row => !decide (id row < id oldest)) = [] :=
        List.filter_eq_nil_iff.mpr fun row dropped => by simpa using apart row dropped
      rw [inside, outside, List.append_nil]

theorem Descending.prune (descending : Descending id rows) (window : Nat) (chosen : Row → Bool) :
    Descending id (prune id window chosen rows) :=
  descending.filter _

/-- Of the kind, the newest rows stay. -/
theorem Descending.filter_prune (descending : Descending id rows) (positive : 0 < window)
    (chosen : Row → Bool) :
    (Retention.prune id window chosen rows).filter chosen = (rows.filter chosen).take window := by
  rw [← (descending.filter chosen).filter_horizon positive, Retention.prune, List.filter_filter,
    List.filter_filter]
  refine List.filter_congr fun row _ => ?_
  cases chosen row <;> simp

/-- Rows of another kind stay. -/
theorem filter_prune_of_disjoint (disjoint : ∀ row, other row = true → chosen row = false) :
    (prune id window chosen rows).filter other = rows.filter other := by
  rw [prune, List.filter_filter]
  refine List.filter_congr fun row _ => ?_
  cases kind : other row with
  | false => rfl
  | true => simp [disjoint row kind]

end Retention
