import Mathlib.Data.List.Induction

/-!
# Buffers which are flushed in batches

Rows are appended to a buffer. With a capacity, a buffer which has reached it is handed on as one
batch and starts again empty; without one it only grows. Flushing neither loses nor reorders a
row, and what is left in the buffer are the rows behind the last multiple of the capacity.
-/

/-- The batches handed on so far, and the rows which wait. -/
structure Buffer (Row : Type*) where
  batches : List (List Row) := []
  rows : List Row := []

namespace Buffer

variable {Row : Type*}

def push (capacity : Option Nat) (buffer : Buffer Row) (row : Row) : Buffer Row :=
  let rows := buffer.rows ++ [row]
  match capacity with
  | none => { buffer with rows }
  | some capacity =>
      if rows.length < capacity then { buffer with rows }
      else { batches := buffer.batches ++ [rows], rows := [] }

/-- All rows, in the order in which they came. -/
def contents (buffer : Buffer Row) : List Row := buffer.batches.flatten ++ buffer.rows

/-- The buffer behind a list of rows. -/
def pushAll (capacity : Option Nat) (rows : List Row) : Buffer Row :=
  rows.foldl (push capacity) {}

theorem pushAll_append_singleton (capacity : Option Nat) (rows : List Row) (row : Row) :
    pushAll capacity (rows ++ [row]) = (pushAll capacity rows).push capacity row := by
  rw [pushAll, List.foldl_append]
  rfl

theorem contents_push (capacity : Option Nat) (buffer : Buffer Row) (row : Row) :
    (buffer.push capacity row).contents = buffer.contents ++ [row] := by
  cases capacity with
  | none => simp [push, contents]
  | some capacity =>
      simp only [push]
      split_ifs
      · simp [contents]
      · simp [contents]

/-- Nothing is lost and nothing changes its place. -/
theorem contents_pushAll (capacity : Option Nat) (rows : List Row) :
    (pushAll capacity rows).contents = rows := by
  induction rows using List.reverseRecOn with
  | nil => rfl
  | append_singleton rows row ih => rw [pushAll_append_singleton, contents_push, ih]

theorem rows_pushAll_none (rows : List Row) : (pushAll none rows).rows = rows := by
  induction rows using List.reverseRecOn with
  | nil => rfl
  | append_singleton rows row ih =>
      rw [pushAll_append_singleton, push, ih]

/-- The rows behind the last multiple of the capacity. -/
def remainder (capacity : Nat) (rows : List Row) : List Row :=
  rows.drop (capacity * (rows.length / capacity))

theorem remainder_suffix (capacity : Nat) (rows : List Row) : remainder capacity rows <:+ rows :=
  List.drop_suffix _ _

theorem length_remainder (capacity : Nat) (rows : List Row) :
    (remainder capacity rows).length = rows.length % capacity := by
  rw [remainder, List.length_drop]
  have split := Nat.div_add_mod rows.length capacity
  omega

theorem rows_pushAll_some {capacity : Nat} (positive : 0 < capacity) (rows : List Row) :
    (pushAll (some capacity) rows).rows = remainder capacity rows := by
  induction rows using List.reverseRecOn with
  | nil => simp [pushAll, remainder]
  | append_singleton rows row ih =>
      have split := Nat.div_add_mod rows.length capacity
      have small := Nat.mod_lt rows.length positive
      have waiting := length_remainder capacity rows
      rw [pushAll_append_singleton]
      simp only [push, ih, List.length_append, List.length_singleton]
      split_ifs with fits
      · -- the last multiple of the capacity is still the same
        have same : (rows.length + 1) / capacity = rows.length / capacity :=
          Nat.div_eq_of_lt_le (by rw [Nat.mul_comm]; omega)
            (by rw [Nat.add_mul, Nat.mul_comm]; omega)
        rw [remainder, remainder, List.length_append, List.length_singleton, same,
          List.drop_append_of_le_length (by omega)]
      · have full : capacity * ((rows.length + 1) / capacity) = rows.length + 1 := by
          refine Nat.mul_div_cancel' (Nat.dvd_of_mod_eq_zero ?_)
          rw [Nat.add_mod, show rows.length % capacity = capacity - 1 by omega]
          rcases Nat.lt_or_ge 1 capacity with more | one
          · rw [Nat.mod_eq_of_lt more, Nat.sub_add_cancel positive, Nat.mod_self]
          · rw [show capacity = 1 by omega]
        have spent : remainder capacity (rows ++ [row]) = [] := by
          rw [remainder, List.length_append, List.length_singleton, full]
          exact List.drop_of_length_le (by simp)
        exact spent.symm

end Buffer
