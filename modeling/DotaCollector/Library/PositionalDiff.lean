import Mathlib.Data.List.Chain
import Mathlib.Data.List.Infix
import Mathlib.Data.List.Perm.Subperm

/-!
# Reporting a growing list by position

A list is read again and again, and an entry is reported when the position it stands at had another
label, or none, at the reading before. Between two readings entries only appear. Each of them is
reported once exactly when they appear at the end: an entry which appears further in front moves
those behind it, and they are reported again.
-/

namespace PositionalDiff

variable {Entry Label : Type*} [DecidableEq Label] (label : Entry → Label)

/-- The entries of the new list at positions which had another label, or none. -/
def changes : List Entry → List Entry → List Entry
  | [], new => new
  | _ :: _, [] => []
  | was :: old, entry :: new =>
      if label was = label entry then changes old new else entry :: changes old new

/-- What is reported by one reading after the other. -/
def reports : List Entry → List (List Entry) → List Entry
  | _, [] => []
  | old, new :: later => changes label old new ++ reports new later

variable {label} {old new : List Entry} {lists : List (List Entry)} {entry : Entry}

/-! ## One reading -/

theorem changes_sublist (old new : List Entry) : (changes label old new).Sublist new := by
  induction old generalizing new with
  | nil => exact List.Sublist.refl new
  | cons was old ih =>
      cases new with
      | nil => exact List.Sublist.refl []
      | cons entry new =>
          rw [changes]
          split_ifs
          · exact (ih new).cons entry
          · exact (ih new).cons_cons entry

theorem length_le_changes (label : Entry → Label) (old new : List Entry) :
    new.length ≤ old.length + (changes label old new).length := by
  induction old generalizing new with
  | nil => simp [changes]
  | cons was old ih =>
      cases new with
      | nil => simp
      | cons entry new =>
          have rest := ih new
          rw [changes]
          split_ifs <;> simp only [List.length_cons] <;> omega

theorem changes_cons (old new : List Entry) (entry : Entry) :
    changes label old (entry :: new) =
      if old.head?.map label = some (label entry) then changes label old.tail new
      else entry :: changes label old.tail new := by
  cases old with
  | nil => rfl
  | cons was old => simp [changes]

/-- A list which has grown at its end reports what is new. -/
theorem changes_append (old new : List Entry) : changes label old (old ++ new) = new := by
  induction old with
  | nil => rfl
  | cons was old ih => rw [List.cons_append, changes, if_pos rfl, ih]

/-- When no position reports a second time, the reports are those of the new positions. -/
theorem changes_eq_drop (longer : old.length ≤ new.length)
    (tight : old.length + (changes label old new).length ≤ new.length) :
    changes label old new = new.drop old.length := by
  induction old generalizing new with
  | nil => rfl
  | cons was old ih =>
      cases new with
      | nil => simp at longer
      | cons entry new =>
          rw [changes] at tight ⊢
          simp only [List.length_cons, Nat.add_le_add_iff_right] at longer tight
          split_ifs at tight ⊢ with same
          · exact ih longer (by omega)
          · have rest := length_le_changes label old new
            simp only [List.length_cons] at tight
            omega

/-- A list which keeps its entries, reports as many as are new and none which it had already has
grown at its end. -/
theorem append_changes (grown : old.Sublist new)
    (tight : old.length + (changes label old new).length ≤ new.length)
    (fresh : ∀ entry ∈ old, entry ∉ changes label old new) :
    old ++ changes label old new = new := by
  have behind := changes_eq_drop grown.length_le tight
  have split := List.take_append_drop old.length new
  rw [← behind] at split
  have front : old.Sublist (new.take old.length) := by
    rw [← split] at grown
    obtain ⟨left, right, same, inFront, inChanges⟩ := List.sublist_append_iff.mp grown
    cases right with
    | nil =>
        rw [List.append_nil] at same
        exact same ▸ inFront
    | cons entry right =>
        have member : entry ∈ old := by simp [same]
        exact (fresh entry member (inChanges.subset List.mem_cons_self)).elim
  have equal := front.eq_of_length (by rw [List.length_take, Nat.min_eq_left grown.length_le])
  nth_rewrite 1 [equal]
  exact split

/-! ## All readings -/

theorem length_le_reports (label : Entry → Label) (old : List Entry) (lists : List (List Entry)) :
    (lists.getLastD old).length ≤ old.length + (reports label old lists).length := by
  induction lists generalizing old with
  | nil => exact Nat.le_refl _
  | cons new later ih =>
      have rest := ih new
      have first := length_le_changes label old new
      rw [List.getLastD_cons, reports, List.length_append]
      omega

theorem sublist_getLastD (grows : (old :: lists).IsChain List.Sublist) :
    old.Sublist (lists.getLastD old) := by
  induction lists generalizing old with
  | nil => exact List.Sublist.refl old
  | cons new later ih =>
      obtain ⟨first, rest⟩ := List.isChain_cons_cons.mp grows
      rw [List.getLastD_cons]
      exact first.trans (ih rest)

theorem sublist_getLastD_of_mem (grows : (old :: lists).IsChain List.Sublist)
    (member : new ∈ lists) : new.Sublist (lists.getLastD old) := by
  induction lists generalizing old with
  | nil => cases member
  | cons first later ih =>
      obtain ⟨-, rest⟩ := List.isChain_cons_cons.mp grows
      rw [List.getLastD_cons]
      rcases List.mem_cons.mp member with rfl | member
      · exact sublist_getLastD rest
      · exact ih rest member

theorem mem_getLastD_of_mem_reports (grows : (old :: lists).IsChain List.Sublist)
    (member : entry ∈ reports label old lists) : entry ∈ lists.getLastD old := by
  induction lists generalizing old with
  | nil => cases member
  | cons new later ih =>
      obtain ⟨-, rest⟩ := List.isChain_cons_cons.mp grows
      rw [List.getLastD_cons]
      rcases List.mem_append.mp member with now | afterwards
      · exact (sublist_getLastD rest).subset ((changes_sublist old new).subset now)
      · exact ih rest afterwards

/-- While the list grows at its end, the reports are its entries in their order. -/
theorem append_reports (label : Entry → Label) (grows : (old :: lists).IsChain (· <+: ·)) :
    old ++ reports label old lists = lists.getLastD old := by
  induction lists generalizing old with
  | nil => exact List.append_nil old
  | cons new later ih =>
      obtain ⟨⟨added, rfl⟩, rest⟩ := List.isChain_cons_cons.mp grows
      rw [List.getLastD_cons, reports, changes_append, ← List.append_assoc]
      exact ih rest

theorem isChain_prefix (grows : (old :: lists).IsChain List.Sublist)
    (once : (old ++ reports label old lists).Nodup)
    (tight : old.length + (reports label old lists).length ≤ (lists.getLastD old).length) :
    (old :: lists).IsChain (· <+: ·) := by
  induction lists generalizing old with
  | nil => exact List.isChain_singleton old
  | cons new later ih =>
      obtain ⟨first, rest⟩ := List.isChain_cons_cons.mp grows
      have onward := length_le_reports label new later
      have now := length_le_changes label old new
      rw [List.getLastD_cons, reports, List.length_append] at tight
      rw [reports, ← List.append_assoc] at once
      have apart := List.nodup_append.mp (List.nodup_append.mp once).1
      have added : old ++ changes label old new = new :=
        append_changes first (by omega) fun entry member again =>
          apart.2.2 entry member entry again rfl
      rw [added] at once
      have length : old.length + (changes label old new).length = new.length := by
        rw [← List.length_append, added]
      exact List.isChain_cons_cons.mpr ⟨⟨_, added⟩, ih rest once (by omega)⟩

/-- Each entry of a list which only gains entries is reported exactly once exactly when the last
list has no entry twice and each list begins with the one before it. -/
theorem once_iff (label : Entry → Label) (grows : (old :: lists).IsChain List.Sublist) :
    (old ++ reports label old lists).Nodup ∧
        (∀ entry ∈ lists.getLastD old, entry ∈ old ++ reports label old lists) ↔
      (lists.getLastD old).Nodup ∧ (old :: lists).IsChain (· <+: ·) := by
  constructor
  · rintro ⟨once, all⟩
    have within : old ++ reports label old lists ⊆ lists.getLastD old := by
      intro entry member
      rcases List.mem_append.mp member with listed | reported
      · exact (sublist_getLastD grows).subset listed
      · exact mem_getLastD_of_mem_reports grows reported
    have few := (List.Nodup.subperm once within).length_le
    have many : (lists.getLastD old).length ≤ (old ++ reports label old lists).length := by
      rw [List.length_append]
      exact length_le_reports label old lists
    have same := (List.Nodup.subperm once within).perm_of_length_le many
    rw [List.length_append] at few
    exact ⟨same.nodup_iff.mp once, isChain_prefix grows once few⟩
  · rintro ⟨distinct, atEnd⟩
    rw [append_reports label atEnd]
    exact ⟨distinct, fun entry member => member⟩

end PositionalDiff
