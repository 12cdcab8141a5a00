import DotaCollector.Library.Nullable

/-!
# Patches

A field of a patch is absent, null, or a value. An absent field keeps the column, null empties it,
and a value replaces it. A program that turns absence into null before it writes can no longer tell
the two apart; with `COALESCE` it keeps the column in both cases.
-/

namespace Nullable

variable {α : Type*}

/-- A field of a patch. -/
inductive PatchField (α : Type*) where
  | undefined
  | null
  | value (given : α)
  deriving DecidableEq, Repr

namespace PatchField

/-- `field ?? null` -/
def orNull : PatchField α → Option α
  | .undefined | .null => none
  | .value given => some given

/-- What the column is to be. -/
def apply (field : PatchField α) (column : Option α) : Option α :=
  match field with
  | .undefined => column
  | .null => none
  | .value given => some given

/-- `COALESCE` writes what is meant, unless it is to empty the column. -/
theorem coalesce_eq_apply_iff {field : PatchField α} {column : Option α} :
    coalesce field.orNull column = field.apply column ↔ (field = .null → column = none) := by
  cases field with
  | undefined => simp [orNull, apply]
  | null => simp [orNull, apply]
  | value given => simp [orNull, apply]

theorem orNull_eq_none_iff {field : PatchField α} :
    field.orNull = none ↔ ∀ given, field ≠ .value given := by
  cases field with
  | undefined | null => simp [orNull]
  | value given => simp [orNull]

end PatchField

end Nullable
