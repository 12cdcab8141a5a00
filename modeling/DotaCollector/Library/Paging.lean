import Mathlib.Data.List.Infix
import Mathlib.Data.List.Pairwise
import Mathlib.Order.Lattice

/-!
# Pages of a descending listing

A listing carries strictly descending ids, newest first, and grows at its newest end only. It is
read in pages: a page starts at an id, which is included, or at the newest entry, and says how many
older entries remain. The rules below say what a page tells about the ids it spans, and that the
oldest entry of a page is a start from which nothing is missed.
-/

namespace Paging

variable {Entry Id : Type*} [LinearOrder Id] {id : Entry → Id}

/-- The ids strictly descend. -/
def Descending (id : Entry → Id) (listing : List Entry) : Prop :=
  listing.Pairwise fun newer older => id older < id newer

instance (listing : List Entry) : Decidable (Descending id listing) :=
  inferInstanceAs (Decidable (listing.Pairwise fun newer older => id older < id newer))

/-- What a reader is given. -/
structure Page (Entry : Type*) where
  entries : List Entry
  remaining : Nat

/-- The entries from a start on, or all of them. -/
def onward (id : Entry → Id) (listing : List Entry) : Option Id → List Entry
  | none => listing
  | some start => listing.filter fun entry => decide (id entry ≤ start)

/-- A page of a size from a start on. -/
def serve (id : Entry → Id) (size : Nat) (listing : List Entry) (start : Option Id) :
    Page Entry where
  entries := (onward id listing start).take size
  remaining := (onward id listing start).length - size

variable {listing front back : List Entry} {entry newest oldest : Entry} {size : Nat}

theorem mem_onward_some {start : Id} :
    entry ∈ onward id listing (some start) ↔ entry ∈ listing ∧ id entry ≤ start := by
  simp [onward]

theorem mem_of_mem_onward {start : Option Id} (member : entry ∈ onward id listing start) :
    entry ∈ listing := by
  cases start with
  | none => exact member
  | some start => exact (mem_onward_some.mp member).1

theorem Descending.onward {start : Option Id} (descending : Descending id listing) :
    Descending id (onward id listing start) := by
  cases start with
  | none => exact descending
  | some start => exact descending.filter _

/-- An older start within what a start leads to. -/
theorem onward_onward {start : Option Id} {older : Id} (below : ∀ id ∈ start, older ≤ id) :
    onward id (onward id listing start) (some older) = onward id listing (some older) := by
  cases start with
  | none => rfl
  | some start =>
      simp only [onward, List.filter_filter]
      refine List.filter_congr fun entry _ => ?_
      have below := below start rfl
      simpa using fun inside => le_trans inside below

/-- The entries in front are those down to the last of them. -/
theorem Descending.mem_front_iff (descending : Descending id (front ++ back))
    (last : front.getLast? = some oldest) (member : entry ∈ front ++ back) :
    entry ∈ front ↔ id oldest ≤ id entry := by
  obtain ⟨before, rfl⟩ := List.getLast?_eq_some_iff.mp last
  constructor
  · intro inside
    rcases List.mem_append.mp inside with earlier | here
    · have sorted := (List.pairwise_append.mp descending).1
      exact le_of_lt ((List.pairwise_append.mp sorted).2.2 entry earlier oldest List.mem_cons_self)
    · rw [List.mem_singleton.mp here]
  · intro above
    rcases List.mem_append.mp member with inside | behind
    · exact inside
    · have below := (List.pairwise_append.mp descending).2.2 oldest
        (List.mem_append_right _ List.mem_cons_self) entry behind
      exact absurd above (not_le.mpr below)

/-- A page has the entries from its start down to its oldest. -/
theorem Descending.mem_serve_iff {start : Option Id} (descending : Descending id listing)
    (last : (serve id size listing start).entries.getLast? = some oldest)
    (member : entry ∈ Paging.onward id listing start) :
    entry ∈ (serve id size listing start).entries ↔ id oldest ≤ id entry := by
  have sorted : Descending id (Paging.onward id listing start) := descending.onward
  rw [← List.take_append_drop size (Paging.onward id listing start)] at sorted member
  exact sorted.mem_front_iff last member

/-- A page behind which nothing remains is complete. -/
theorem serve_eq_onward {start : Option Id} (done : (serve id size listing start).remaining = 0) :
    (serve id size listing start).entries = onward id listing start :=
  List.take_of_length_le (Nat.sub_eq_zero_iff_le.mp done)

/-- An empty page says that there is nothing. -/
theorem onward_eq_nil {start : Option Id} (positive : 0 < size)
    (empty : (serve id size listing start).entries = []) : onward id listing start = [] := by
  rcases List.take_eq_nil_iff.mp empty with none | nothing
  · omega
  · exact nothing

/-- Nobody is newer than the head of a descending listing. -/
theorem Descending.le_head (descending : Descending id listing)
    (head : listing.head? = some newest) (member : entry ∈ listing) : id entry ≤ id newest := by
  obtain ⟨later, rfl⟩ := List.head?_eq_some_iff.mp head
  rcases List.mem_cons.mp member with rfl | behind
  · exact le_rfl
  · exact le_of_lt ((List.pairwise_cons.mp descending).1 entry behind)

/-- What follows a start is on its page, or older than the oldest entry of a page behind which
something remains. -/
theorem Descending.mem_or_older {start : Option Id} (descending : Descending id listing)
    (positive : 0 < size) (member : entry ∈ Paging.onward id listing start) :
    entry ∈ (serve id size listing start).entries ∨
      (serve id size listing start).remaining ≠ 0 ∧
        ∃ oldest, (serve id size listing start).entries.getLast? = some oldest ∧
          id entry < id oldest := by
  by_cases inside : entry ∈ (serve id size listing start).entries
  · exact .inl inside
  · refine .inr ⟨fun done => ?_, ?_⟩
    · rw [serve_eq_onward done] at inside
      exact inside member
    · have filled : (serve id size listing start).entries ≠ [] := by
        intro empty
        rw [onward_eq_nil positive empty] at member
        exact List.not_mem_nil member
      have last := List.getLast?_eq_some_getLast filled
      exact ⟨_, last, not_le.mp (mt (descending.mem_serve_iff last member).mpr inside)⟩

/-- A listing which has grown at its newest end has nothing new below an entry it had before. -/
theorem Descending.mem_of_le {earlier : List Entry} {known : Entry}
    (descending : Descending id listing) (grown : earlier <:+ listing) (anchor : known ∈ earlier)
    (member : entry ∈ listing) (older : id entry ≤ id known) : entry ∈ earlier := by
  obtain ⟨added, rfl⟩ := grown
  rcases List.mem_append.mp member with new | old
  · have newer := (List.pairwise_append.mp descending).2.2 entry new known anchor
    exact absurd older (not_le.mpr newer)
  · exact old

/-- A page of more than one entry gets older, unless it is the last one. -/
theorem Descending.oldest_lt {start : Option Id} (descending : Descending id listing)
    (several : 2 ≤ size) (more : (serve id size listing start).remaining ≠ 0)
    (last : (serve id size listing start).entries.getLast? = some oldest) :
    ∃ newest, (Paging.onward id listing start).head? = some newest ∧ id oldest < id newest := by
  have sorted : Descending id (Paging.onward id listing start) := descending.onward
  unfold serve at more last
  dsimp only at more last
  generalize Paging.onward id listing start = rest at *
  match rest, size with
  | [], _ => simp at more
  | [_], size + 2 => simp at more
  | newest :: second :: later, size + 2 =>
      refine ⟨newest, rfl, ?_⟩
      rw [List.take_succ_cons, List.take_succ_cons, List.getLast?_cons_cons] at last
      have member : oldest ∈ (second :: later).take (size + 1) := List.mem_of_getLast? last
      exact (List.pairwise_cons.mp sorted).1 oldest (List.mem_of_mem_take member)

end Paging
