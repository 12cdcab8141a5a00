import Mathlib.Data.List.Perm.Basic

/-!
# Choosing by a comparison

A list is gone through with the best item so far, which gives way to any item that beats it. Where
the comparison is not transitive, or leaves two items incomparable, the last best item may depend
on the order of the list: it does not just when one item beats all the others.
-/

namespace Champion

variable {Item : Type*} (beats : Item → Item → Bool)

/-- The best item of a list, gone through from its front. -/
def best (first : Item) (rest : List Item) : Item :=
  rest.foldl (fun best item => if beats item best then item else best) first

def best? : List Item → Option Item
  | [] => none
  | first :: rest => some (best beats first rest)

/-- An item which beats all the others. -/
def Unbeaten (items : List Item) (winner : Item) : Prop :=
  winner ∈ items ∧ ∀ item ∈ items, item ≠ winner → beats winner item = true

variable {beats} {items other : List Item} {winner : Item}

variable (beats) in
theorem best_mem (first : Item) (rest : List Item) : best beats first rest ∈ first :: rest := by
  induction rest generalizing first with
  | nil => exact List.mem_cons_self
  | cons item rest ih =>
      rw [best, List.foldl_cons]
      split_ifs
      · exact List.mem_cons_of_mem _ (ih item)
      · rcases List.mem_cons.mp (ih first) with same | later
        · exact List.mem_cons.mpr (.inl same)
        · exact List.mem_cons_of_mem _ (List.mem_cons_of_mem _ later)

theorem mem_of_best? (found : best? beats items = some winner) : winner ∈ items := by
  cases items with
  | nil => cases found
  | cons first rest =>
      rw [← Option.some_inj.mp found]
      exact best_mem beats first rest

theorem best_eq_of_unbeaten (asymm : ∀ item other, beats item other = true →
      beats other item = false) {first : Item} {rest : List Item}
    (unbeaten : Unbeaten beats (first :: rest) winner) : best beats first rest = winner := by
  obtain ⟨listed, wins⟩ := unbeaten
  induction rest generalizing first with
  | nil => exact (List.mem_singleton.mp listed).symm
  | cons item rest ih =>
      rw [best, List.foldl_cons]
      have later : ∀ front, front = first ∨ front = item → winner ∈ front :: rest →
          best beats front rest = winner := by
        intro front either found
        refine ih found fun other member different => wins other ?_ different
        rcases List.mem_cons.mp member with rfl | behind
        · rcases either with rfl | rfl
          · exact List.mem_cons_self
          · exact List.mem_cons_of_mem _ List.mem_cons_self
        · exact List.mem_cons_of_mem _ (List.mem_cons_of_mem _ behind)
      split_ifs with better
      · refine later item (.inr rfl) ?_
        by_cases top : first = winner
        · by_cases same : item = winner
          · exact List.mem_cons.mpr (.inl same.symm)
          · have beaten := wins item (List.mem_cons_of_mem _ List.mem_cons_self) same
            rw [← top] at beaten
            exact absurd better (by rw [asymm _ _ beaten]; exact Bool.false_ne_true)
        · exact (List.mem_cons.mp listed).resolve_left (Ne.symm top)
      · refine later first (.inl rfl) ?_
        rcases List.mem_cons.mp listed with rfl | behind
        · exact List.mem_cons_self
        · rcases List.mem_cons.mp behind with rfl | behind
          · by_cases same : first = winner
            · exact List.mem_cons.mpr (.inl same.symm)
            · exact absurd (wins first List.mem_cons_self same) better
          · exact List.mem_cons_of_mem _ behind

/-- The choice is independent of the order of the list just when one item beats all others. -/
theorem best?_perm_iff (asymm : ∀ item other, beats item other = true → beats other item = false)
    (nodup : items.Nodup) :
    (∀ other, other.Perm items → best? beats other = best? beats items) ↔
      items = [] ∨ ∃ winner, Unbeaten beats items winner := by
  classical
  constructor
  · intro same
    by_contra neither
    push Not at neither
    obtain ⟨nonempty, unbeaten⟩ := neither
    obtain ⟨winner, found⟩ : ∃ winner, best? beats items = some winner := by
      cases items with
      | nil => exact absurd rfl nonempty
      | cons first rest => exact ⟨_, rfl⟩
    have listed := mem_of_best? found
    refine unbeaten winner ⟨listed, fun item member different => ?_⟩
    by_contra loses
    -- behind `item` the winner does not become the best, and it does not come again
    have rearranged : (item :: winner :: (items.erase item).erase winner).Perm items := by
      have inside : winner ∈ items.erase item := (List.mem_erase_of_ne different.symm).mpr listed
      exact ((List.perm_cons_erase inside).symm.cons item).trans (List.perm_cons_erase member).symm
    have again := same _ rearranged
    rw [found, best?, best, List.foldl_cons, if_neg loses, Option.some_inj] at again
    have kept := best_mem beats item ((items.erase item).erase winner)
    rw [best, again] at kept
    rcases List.mem_cons.mp kept with rfl | behind
    · exact different rfl
    · exact ((nodup.erase item).not_mem_erase) behind
  · rintro (rfl | ⟨winner, unbeaten⟩) other perm
    · rw [List.perm_nil.mp perm]
    · have wins : ∀ list : List Item, list.Perm items → best? beats list = some winner := by
        intro list order
        have moved : Unbeaten beats list winner :=
          ⟨order.mem_iff.mpr unbeaten.1, fun item member => unbeaten.2 item (order.subset member)⟩
        cases list with
        | nil => cases moved.1
        | cons first rest => exact congrArg some (best_eq_of_unbeaten asymm moved)
      rw [wins other perm, wins items (List.Perm.refl _)]

end Champion
