import Mathlib.Data.List.Infix

/-!
# The first place of a pattern

`List.dropInfix?` takes a text apart at the first place of a pattern. Here is how it reads a text
from its front, and what stands before that place.
-/

namespace Search

variable {α : Type*} [DecidableEq α] {pattern text front back : List α} {a : α}

theorem dropInfix?_eq_some :
    text.dropInfix? pattern = some (front, back) ↔
      text = front ++ pattern ++ back ∧
        ∀ before after, text = before ++ pattern ++ after → front.length ≤ before.length := by
  simp only [List.dropInfix?_eq_some_iff, beq_iff_eq, exists_eq_right]
  constructor
  · rintro ⟨split, least⟩
    exact ⟨split, fun before after other => least before pattern after other rfl⟩
  · rintro ⟨split, least⟩
    exact ⟨split, fun before _ after other same => least before after (same ▸ other)⟩

theorem dropInfix?_eq_none (absent : ¬ pattern <:+: text) : text.dropInfix? pattern = none := by
  refine Option.eq_none_iff_forall_not_mem.mpr fun found member => ?_
  exact absent ⟨found.1, found.2, (dropInfix?_eq_some.mp member).1.symm⟩

theorem dropInfix?_append (pattern back : List α) :
    (pattern ++ back).dropInfix? pattern = some ([], back) :=
  dropInfix?_eq_some.mpr ⟨rfl, fun _ _ _ => Nat.zero_le _⟩

/-- A pattern which is not at the front is sought behind the first element. -/
theorem dropInfix?_cons (elsewhere : ¬ pattern <+: a :: text) :
    (a :: text).dropInfix? pattern =
      (text.dropInfix? pattern).map fun found => (a :: found.1, found.2) := by
  refine Option.ext fun found => ?_
  obtain ⟨front, back⟩ := found
  simp only [dropInfix?_eq_some, Option.map_eq_some_iff, Prod.mk.injEq, Prod.exists]
  constructor
  · rintro ⟨split, least⟩
    cases front with
    | nil => exact (elsewhere ⟨back, split.symm⟩).elim
    | cons b front =>
        obtain ⟨rfl, rest⟩ := List.cons.inj split
        refine ⟨front, back, ⟨rest, fun before after other => ?_⟩, rfl, rfl⟩
        have later := least (a :: before) after (by rw [other]; rfl)
        simpa using later
  · rintro ⟨front, back, ⟨rfl, least⟩, rfl, rfl⟩
    refine ⟨rfl, fun before after other => ?_⟩
    cases before with
    | nil => exact (elsewhere ⟨after, other.symm⟩).elim
    | cons b before =>
        obtain ⟨-, rest⟩ := List.cons.inj other
        simpa using least before after rest

/-- The text before the first place of a pattern, the whole text where there is none. -/
def before (pattern text : List α) : List α :=
  match text.dropInfix? pattern with
  | some (front, _) => front
  | none => text

theorem before_append (pattern back : List α) : before pattern (pattern ++ back) = [] := by
  rw [before, dropInfix?_append]

theorem before_of_starts (starts : pattern <+: text) : before pattern text = [] := by
  obtain ⟨back, rfl⟩ := starts
  exact before_append pattern back

theorem before_cons (elsewhere : ¬ pattern <+: a :: text) :
    before pattern (a :: text) = a :: before pattern text := by
  rw [before, before, dropInfix?_cons elsewhere]
  cases text.dropInfix? pattern <;> rfl

theorem before_nil (pattern : List α) : before pattern [] = [] := by
  cases pattern <;> rfl

/-- A text without the first element of the pattern. -/
theorem before_of_not_mem (absent : a ∉ text) : before (a :: pattern) text = text := by
  induction text with
  | nil => exact before_nil _
  | cons b text ih =>
      have elsewhere : ¬ a :: pattern <+: b :: text := fun starts =>
        absent (starts.subset List.mem_cons_self)
      rw [before_cons elsewhere, ih fun member => absent (List.mem_cons_of_mem b member)]

end Search
