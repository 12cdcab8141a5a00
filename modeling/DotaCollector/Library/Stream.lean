import Mathlib.Data.List.Infix
import Mathlib.Data.List.Pairwise

/-!
# Windows of a numbered stream

A stream is a list whose items carry strictly increasing numbers; it grows at its end only. A
window is what a reader is given who asks for a number of items from some number on. The rules
below say what a window taken from an earlier stream still means for the grown one: it has
everything up to its last item, and it gets as far as its size promises unless the stream had
ended there.
-/

namespace Stream

variable {Item : Type*} {number : Item → Nat}

/-- The numbers of a stream strictly increase. -/
def Increasing (number : Item → Nat) (stream : List Item) : Prop :=
  stream.Pairwise fun first second => number first < number second

instance (stream : List Item) : Decidable (Increasing number stream) :=
  inferInstanceAs (Decidable (stream.Pairwise fun first second => number first < number second))

/-- The first `size` items numbered `start` or above. -/
def window (number : Item → Nat) (stream : List Item) (start size : Nat) : List Item :=
  (stream.filter (start ≤ number ·)).take size

theorem mem_of_mem_window {stream : List Item} {start size : Nat} {item : Item}
    (found : item ∈ window number stream start size) : item ∈ stream :=
  List.mem_of_mem_filter (List.mem_of_mem_take found)

theorem Increasing.append_singleton {stream : List Item} {item : Item}
    (increasing : Increasing number stream) (above : ∀ other ∈ stream, number other < number item) :
    Increasing number (stream ++ [item]) := by
  refine List.pairwise_append.mpr ⟨increasing, List.pairwise_singleton _ _, ?_⟩
  intro first found second last
  obtain rfl := List.mem_singleton.mp last
  exact above first found

/-- What is numbered at most as some item of a front is in that front. -/
theorem Increasing.mem_front {front back : List Item} {item last : Item}
    (increasing : Increasing number (front ++ back)) (found : item ∈ front ++ back)
    (inside : last ∈ front) (below : number item ≤ number last) : item ∈ front := by
  rcases List.mem_append.mp found with here | behind
  · exact here
  · have above := (List.pairwise_append.mp increasing).2.2 last inside item behind
    omega

/-- A window taken from an earlier stream has every item up to its last one. -/
theorem Increasing.mem_window {front stream : List Item} {start size : Nat} {item last : Item}
    (increasing : Increasing number stream) (earlier : front <+: stream)
    (inside : last ∈ window number front start size) (found : item ∈ stream)
    (above : start ≤ number item) (below : number item ≤ number last) :
    item ∈ window number front start size := by
  obtain ⟨back, rfl⟩ := earlier
  have known : item ∈ front := increasing.mem_front found (mem_of_mem_window inside) below
  have filtered : Increasing number (front.filter (start ≤ number ·)) :=
    (List.pairwise_append.mp increasing).1.filter _
  rw [← List.take_append_drop size (front.filter _)] at filtered
  refine filtered.mem_front ?_ inside below
  rw [List.take_append_drop]
  exact List.mem_filter.mpr ⟨known, by simpa using above⟩

/-- Increasing numbers from `start` on get one further with every item. -/
theorem Increasing.exists_number_ge {stream : List Item} {start : Nat}
    (increasing : Increasing number stream) (above : ∀ item ∈ stream, start ≤ number item)
    (nonempty : stream ≠ []) :
    ∃ item ∈ stream, start + stream.length ≤ number item + 1 := by
  induction stream generalizing start with
  | nil => exact absurd rfl nonempty
  | cons first stream ih =>
      obtain ⟨beyond, increasing⟩ := List.pairwise_cons.mp increasing
      have begins := above first (List.mem_cons_self ..)
      by_cases last : stream = []
      · subst last
        exact ⟨first, List.mem_cons_self .., by simpa using begins⟩
      · have further : ∀ item ∈ stream, start + 1 ≤ number item := by
          intro item found
          have later := beyond item found
          omega
        obtain ⟨item, found, reaches⟩ := ih increasing further last
        refine ⟨item, List.mem_cons_of_mem _ found, ?_⟩
        rw [List.length_cons]
        omega

/-- A window reaches every number of its range which the stream has passed. -/
theorem Increasing.exists_mem_window {stream : List Item} {start size n : Nat} {later : Item}
    (increasing : Increasing number stream) (found : later ∈ stream)
    (passed : n < number later) (above : start ≤ n) (below : n < start + size) :
    ∃ item ∈ window number stream start size, n ≤ number item := by
  have inside : later ∈ stream.filter (start ≤ number ·) :=
    List.mem_filter.mpr ⟨found, by simp; omega⟩
  by_cases short : (stream.filter (start ≤ number ·)).length ≤ size
  · refine ⟨later, ?_, by omega⟩
    rw [window, List.take_of_length_le short]
    exact inside
  · have full : (window number stream start size).length = size :=
      List.length_take_of_le (by omega)
    have filtered : Increasing number (window number stream start size) :=
      (increasing.filter _).sublist (List.take_sublist _ _)
    obtain ⟨item, within, reaches⟩ := filtered.exists_number_ge
      (fun item within => by
        simpa using (List.mem_filter.mp (List.mem_of_mem_take within)).2)
      (List.ne_nil_of_length_pos (by omega))
    exact ⟨item, within, by omega⟩

end Stream
