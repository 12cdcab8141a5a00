import Mathlib.Data.Fintype.Card

/-!
# Giving work to the least loaded

Workers give items to bins. A worker looks at the loads, chooses a bin which is no fuller than the
others, and puts its item there in a later step, when other workers may have done the same. An
item which is chosen for and not yet put counts against its bin; with that, a bin gets ahead of
another by at most one item for each worker.
-/

namespace LeastLoaded

variable {Worker Bin : Type*} [Fintype Worker] [DecidableEq Bin]

/-- The workers which have chosen the bin and have not yet filled it. -/
def pending (chosen : Worker → Option Bin) (bin : Bin) : Nat :=
  (Finset.univ.filter fun worker => chosen worker = some bin).card

theorem pending_le_card (chosen : Worker → Option Bin) (bin : Bin) :
    pending chosen bin ≤ Fintype.card Worker :=
  Finset.card_filter_le ..

theorem pending_eq_zero {chosen : Worker → Option Bin} (bin : Bin)
    (free : ∀ worker, chosen worker = none) : pending chosen bin = 0 := by
  rw [pending, Finset.card_eq_zero, Finset.filter_eq_empty_iff]
  intro worker _ chose
  rw [free worker] at chose
  cases chose

section Update

variable [DecidableEq Worker] {chosen : Worker → Option Bin} {worker : Worker} {bin : Bin}

theorem pending_update_le {choice : Option Bin} (elsewhere : choice ≠ some bin) :
    pending (Function.update chosen worker choice) bin ≤ pending chosen bin := by
  apply Finset.card_le_card
  intro other there
  rw [Finset.mem_filter] at there ⊢
  refine ⟨there.1, ?_⟩
  rcases eq_or_ne other worker with rfl | ne
  · rw [Function.update_self] at there
    exact (elsewhere there.2).elim
  · rw [Function.update_of_ne ne] at there
    exact there.2

/-- A worker which turns away from its bin is no longer pending there. -/
theorem pending_update_lt {choice : Option Bin} (mine : chosen worker = some bin)
    (elsewhere : choice ≠ some bin) :
    pending (Function.update chosen worker choice) bin < pending chosen bin := by
  apply Finset.card_lt_card
  rw [Finset.ssubset_iff_of_subset]
  · refine ⟨worker, by simp [mine], ?_⟩
    rw [Finset.mem_filter, Function.update_self]
    exact fun there => elsewhere there.2
  · intro other there
    rw [Finset.mem_filter] at there ⊢
    refine ⟨there.1, ?_⟩
    rcases eq_or_ne other worker with rfl | ne
    · rw [Function.update_self] at there
      exact (elsewhere there.2).elim
    · rw [Function.update_of_ne ne] at there
      exact there.2

end Update

/-- One bin, with what is pending there, is ahead of another by at most the slack. -/
def Within (slack : Nat) (load : Bin → Nat) (chosen : Worker → Option Bin) (bin other : Bin) :
    Prop :=
  load bin + pending chosen bin ≤ load other + slack

variable {slack : Nat} {load after : Bin → Nat} {chosen chosenAfter : Worker → Option Bin}
  {bin other : Bin}

/-- Right behind a look at which the bin was no fuller than the other. -/
theorem within_of_le (room : Fintype.card Worker ≤ slack) (least : load bin ≤ load other) :
    Within slack load chosen bin other := by
  have few := pending_le_card chosen bin
  unfold Within
  omega

theorem Within.le (within : Within slack load chosen bin other) :
    load bin ≤ load other + slack := by
  unfold Within at within
  omega

/-- A step behind which neither the bin is fuller nor more is pending there. -/
theorem Within.keep (within : Within slack load chosen bin other)
    (fuller : after bin + pending chosenAfter bin ≤ load bin + pending chosen bin)
    (kept : load other ≤ after other) : Within slack after chosenAfter bin other := by
  unfold Within at *
  omega

/-- A worker fills the bin which it has chosen. -/
theorem Within.fill [DecidableEq Worker] {worker : Worker}
    (within : Within slack load chosen bin other) (mine : chosen worker = some bin)
    (filled : after bin ≤ load bin + 1) (kept : load other ≤ after other) :
    Within slack after (Function.update chosen worker none) bin other := by
  have fewer := pending_update_lt mine (by simp : (none : Option Bin) ≠ some bin)
  exact within.keep (by omega) kept

end LeastLoaded
