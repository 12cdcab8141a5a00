import Mathlib.Algebra.GroupWithZero.Nat
import Mathlib.Data.List.Chain
import Mathlib.Data.List.Infix

/-!
# Serving a listing in rotation

At every turn some entries are served from the front of a listing. When those which were not
served stand at the front of the next listing, in their order, each turn moves an entry forward by
what it serves, so an entry is served as soon as the turns together have served as many entries
as there were before it, and itself.
-/

namespace Rotation

variable {Entry : Type*}

/-- A listing, and how many of its entries are served. -/
structure Turn (Entry : Type*) where
  listing : List Entry
  served : Nat

/-- The entries which a turn serves. -/
def Turn.serves (turn : Turn Entry) : List Entry := turn.listing.take turn.served

/-- The entries which are left by one turn come first in the next one. -/
def Rotates (turn later : Turn Entry) : Prop := turn.listing.drop turn.served <+: later.listing

/-- An entry is served within turns which together serve more entries than stood before it. -/
theorem exists_serves {turns : List (Turn Entry)} (rotates : turns.IsChain Rotates)
    {first : Turn Entry} (head : first ∈ turns.head?) {place : Nat} {entry : Entry}
    (there : first.listing[place]? = some entry)
    (enough : place < (turns.map Turn.served).sum) : ∃ turn ∈ turns, entry ∈ turn.serves := by
  induction turns generalizing first place with
  | nil => cases head
  | cons turn turns ih =>
      cases head
      by_cases now : place < turn.served
      · refine ⟨turn, List.mem_cons_self, List.mem_of_getElem? (i := place) ?_⟩
        rw [Turn.serves, List.getElem?_take_of_lt now]
        exact there
      · cases turns with
        | nil => simp at enough; omega
        | cons later turns =>
            obtain ⟨left, rest⟩ := List.isChain_cons_cons.mp rotates
            have waits : (turn.listing.drop turn.served)[place - turn.served]? = some entry := by
              rw [List.getElem?_drop, Nat.add_sub_cancel' (Nat.le_of_not_lt now)]
              exact there
            have moved : later.listing[place - turn.served]? = some entry := by
              obtain ⟨inside, -⟩ := List.getElem?_eq_some_iff.mp waits
              obtain ⟨others, same⟩ := left
              rw [← same, List.getElem?_append_left inside]
              exact waits
            obtain ⟨serving, member, served⟩ := ih rest rfl moved (by
              simp only [List.map_cons, List.sum_cons] at enough ⊢
              omega)
            exact ⟨serving, List.mem_cons_of_mem _ member, served⟩

end Rotation
