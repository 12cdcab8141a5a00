import Mathlib.Data.Option.Basic

/-!
# Nullable columns

A nullable column is an `Option`. `COALESCE` is the leftmost value present and `NULLIF` turns one
distinguished value into the absence of a value.
-/

namespace Nullable

variable {α : Type*}

/-- `COALESCE(left, right)`. -/
def coalesce (left right : Option α) : Option α := left.or right

/-- `NULLIF(value, blank)`. -/
def nullif [DecidableEq α] (value : Option α) (blank : α) : Option α :=
  if value = some blank then none else value

@[simp] theorem coalesce_some (value : α) (right : Option α) :
    coalesce (some value) right = some value := rfl

@[simp] theorem coalesce_none (right : Option α) : coalesce none right = right := rfl

theorem coalesce_of_ne_none {left : Option α} (present : left ≠ none) (right : Option α) :
    coalesce left right = left := by
  obtain ⟨value, rfl⟩ := Option.ne_none_iff_exists'.mp present
  rfl

theorem coalesce_ne_none_left {left : Option α} (present : left ≠ none) (right : Option α) :
    coalesce left right ≠ none := by
  rw [coalesce_of_ne_none present]
  exact present

theorem coalesce_ne_none_right (left : Option α) {right : Option α} (present : right ≠ none) :
    coalesce left right ≠ none := by
  cases left with
  | none => exact present
  | some value => simp

theorem nullif_of_ne [DecidableEq α] {value : Option α} {blank : α} (ne : value ≠ some blank) :
    nullif value blank = value := if_neg ne

end Nullable
