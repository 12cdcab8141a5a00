import DotaCollector.Library.FirstOccurrences
import DotaCollector.Persist.PublishDraft

/-!
# The sequence of a published draft

`compactDraft` keeps the first row of each entry and stops at 32 rows; `stampDraftClocks` first
reads the clocks of the timeline into a map and then looks the rows of the sequence up in it.
-/

namespace DotaCollector
namespace Persist

open FirstOccurrences
open Parse.DraftTimeline (Draft PickBan)

/-! ## The loops of `stampDraftClocks` -/

/-- The map `first` behind one more row of the timeline. -/
def noteClock (first : PickBan → Option Int32) (row : Draft) : PickBan → Option Int32 :=
  if row.heroId ≤ 0 then first
  else if (first row.entry).isSome then first
  else Function.update first row.entry (some row.clock)

def firstClocks (timeline : List Draft) : PickBan → Option Int32 :=
  timeline.foldl noteClock fun _ => none

/-- The loop over the sequence. -/
def stampFrom (first : PickBan → Option Int32) : List Draft → List Draft
  | [] => []
  | row :: seq =>
      match first row.entry with
      | some clock => { row with clock } :: stampFrom first seq
      | none => { row with clock := 0 } :: stampFrom first seq

/-! ## Clocks -/

variable {timeline seq rows front kept rest : List Draft} {row : Draft}

/-- The clock which the map holds for an entry. -/
theorem firstClocks_eq (timeline : List Draft) (entry : PickBan) :
    firstClocks timeline entry =
      (timeline.find? fun row => 0 < row.heroId && row.entry = entry).map Draft.clock := by
  induction timeline using List.reverseRecOn with
  | nil => rfl
  | append_singleton timeline row ih =>
      rw [firstClocks, List.foldl_append, List.find?_append, List.foldl_cons, List.foldl_nil]
      change noteClock (firstClocks timeline) row entry = _
      rw [noteClock]
      by_cases none : row.heroId ≤ 0
      · have passed : ¬ 0 < row.heroId := Int32.not_lt.mpr none
        rw [if_pos none, ih]
        simp [passed]
      · have positive : 0 < row.heroId := Int32.not_le.mp none
        rw [if_neg none]
        by_cases same : row.entry = entry
        · subst same
          cases found : timeline.find? fun other => 0 < other.heroId && other.entry = row.entry with
          | some other =>
              rw [found] at ih
              simp [ih]
          | none =>
              rw [found] at ih
              simp [ih, positive]
        · split_ifs
          · rw [ih]
            simp [same]
          · rw [Function.update_of_ne (Ne.symm same), ih]
            simp [same]

theorem stampFrom_eq_map (first : PickBan → Option Int32) (seq : List Draft) :
    stampFrom first seq = seq.map fun row => { row with clock := (first row.entry).getD 0 } := by
  induction seq with
  | nil => rfl
  | cons row seq ih =>
      rw [stampFrom, ih, List.map_cons]
      cases first row.entry <;> rfl

/-- What is published has been stamped by these loops. -/
theorem stampDraftClocks_eq (seq timeline : List Draft) :
    stampDraftClocks seq timeline = stampFrom (firstClocks timeline) seq := by
  rw [stampFrom_eq_map, stampDraftClocks]
  refine List.map_congr_left fun row _ => ?_
  rw [firstClocks_eq, firstClock]
  congr 4
  funext other
  simp [sameEntry, Draft.entry]

/-! ## The kept rows -/

/-- The rows with the order numbers 0, 1, 2, … -/
def numbered (rows : List Draft) : List Draft :=
  rows.mapIdx fun place row => { row with ord := UInt16.ofNat place }

/-- The first rows of the entries which have a hero. -/
def firstEntries (rows : List Draft) : List Draft :=
  firsts Draft.entry (rows.filter (0 < ·.heroId))

theorem length_numbered (rows : List Draft) : (numbered rows).length = rows.length :=
  List.length_mapIdx

theorem entry_numbered (rows : List Draft) :
    (numbered rows).map Draft.entry = rows.map Draft.entry := by
  induction rows using List.reverseRecOn with
  | nil => rfl
  | append_singleton rows row ih =>
      rw [numbered, List.mapIdx_concat, List.map_append, List.map_append]
      exact congrArg (· ++ [row.entry]) ih

theorem numbered_take (rows : List Draft) (n : Nat) :
    numbered (rows.take n) = (numbered rows).take n := by
  refine List.mapIdx_eq_iff.mpr fun place => ?_
  rw [List.getElem?_take, List.getElem?_take, numbered, List.getElem?_mapIdx]
  split_ifs <;> rfl

/-- The order numbers of at most 32 rows, as numbers. -/
theorem ord_numbered (short : rows.length ≤ 32) :
    (numbered rows).map (·.ord.toNat) = List.range rows.length := by
  refine List.ext_getElem (by simp [numbered]) fun place inside _ => ?_
  have bound : place < rows.length := by simpa [numbered] using inside
  have exact : place % 2 ^ 16 = place := Nat.mod_eq_of_lt (by omega)
  simpa [numbered] using exact

/-! ## The loop of `compactDraft` -/

/-- Reading one row more. -/
theorem firstEntries_append_singleton (front : List Draft) (row : Draft) :
    firstEntries (front ++ [row]) = firstEntries front ++
      if 0 < row.heroId ∧ row.entry ∉ (firstEntries front).map Draft.entry then [row] else [] := by
  rw [firstEntries, firstEntries, List.filter_append]
  by_cases hero : 0 < row.heroId
  · have kept : [row].filter (0 < ·.heroId) = [row] := by simp [hero]
    rw [kept, firsts_append_singleton]
    simp only [hero, true_and, mem_keys_firsts, ite_not]
  · simp [hero]

theorem firstEntries_prefix (front back : List Draft) :
    firstEntries front <+: firstEntries (front ++ back) := by
  rw [firstEntries, firstEntries, List.filter_append]
  exact firsts_prefix _ _ _

theorem any_sameEntry_iff :
    kept.any (sameEntry row.heroId row.isPick) = true ↔ row.entry ∈ kept.map Draft.entry := by
  simp [sameEntry, Draft.entry, List.any_eq_true]

/-- The loop, from a row on: the rows kept so far are the first ones of those read. -/
theorem compactFrom_eq (whole : kept = numbered (firstEntries front)) (room : kept.length < 32) :
    compactFrom kept rest = (numbered (firstEntries (front ++ rest))).take 32 := by
  induction rest generalizing front kept with
  | nil =>
      rw [compactFrom, List.append_nil, ← whole, List.take_of_length_le room.le]
  | cons row rest ih =>
      have listed : kept.map Draft.entry = (firstEntries front).map Draft.entry := by
        rw [whole, entry_numbered]
      have next := firstEntries_append_singleton front row
      rw [compactFrom, List.append_cons front row rest]
      split_ifs with none known
      · rw [if_neg (fun new => Int32.not_le.mpr new.1 none), List.append_nil] at next
        exact ih (by rw [next, whole]) room
      · rw [any_sameEntry_iff, listed] at known
        rw [if_neg (fun new => new.2 known), List.append_nil] at next
        exact ih (by rw [next, whole]) room
      · rw [any_sameEntry_iff, listed] at known
        rw [if_pos ⟨Int32.not_le.mp none, known⟩] at next
        have grown : kept ++ [{ row with ord := UInt16.ofNat kept.length }] =
            numbered (firstEntries (front ++ [row])) := by
          rw [next, numbered, List.mapIdx_concat, whole, length_numbered]
          rfl
        dsimp only
        rw [grown]
        split
        · -- the loop stops at the 32nd row, and the rows behind it are not read
          rename_i full
          have length : (numbered (firstEntries (front ++ [row]))).length = 32 := by
            rw [← grown, List.length_append, List.length_singleton]
            have most : 32 ≤ kept.length + 1 := by
              rwa [← grown, List.length_append, List.length_singleton] at full
            omega
          obtain ⟨more, split⟩ := firstEntries_prefix (front ++ [row]) rest
          rw [← numbered_take, ← split, ← length, length_numbered, List.take_left]
        · rename_i more
          exact ih rfl (Nat.lt_of_not_le more)

theorem compactDraft_eq (rows : List Draft) :
    compactDraft rows = numbered ((firstEntries rows).take 32) := by
  rw [numbered_take]
  have start : ([] : List Draft).length < 32 := Nat.zero_lt_succ 31
  have whole : [] = numbered (firstEntries []) := rfl
  exact compactFrom_eq whole start

/-! ## Both parts -/

/-- `compactDraft` keeps the first rows of the entries with a hero, in their order, 32 at most,
and only numbers them anew; `stampDraftClocks` sets each clock to the first one which the timeline
has for the entry, and to 0 where it has none or the entry has no hero. -/
theorem compact_and_stamp (rows seq timeline : List Draft) :
    compactDraft rows = numbered ((firsts Draft.entry (rows.filter (0 < ·.heroId))).take 32) ∧
    (compactDraft rows).map (·.ord.toNat) = List.range (compactDraft rows).length ∧
    ((compactDraft rows).map Draft.entry).Nodup ∧
    stampFrom (firstClocks timeline) seq = seq.map fun row =>
      { row with
        clock :=
          if 0 < row.heroId then
            ((timeline.find? (·.entry = row.entry)).map Draft.clock).getD 0
          else 0 } := by
  refine ⟨compactDraft_eq rows, ?_, ?_, ?_⟩
  · rw [compactDraft_eq, length_numbered]
    exact ord_numbered (List.length_take_le _ _)
  · rw [compactDraft_eq, entry_numbered, List.map_take]
    exact (nodup_keys_firsts Draft.entry _).sublist (List.take_sublist _ _)
  · rw [stampFrom_eq_map]
    refine List.map_congr_left fun row _ => ?_
    have same : (fun other : Draft => 0 < other.heroId && other.entry = row.entry) =
        fun other => 0 < row.heroId && other.entry = row.entry := by
      funext other
      by_cases entry : other.entry = row.entry
      · rw [show other.heroId = row.heroId from congrArg PickBan.hero entry]
      · simp [entry]
    rw [firstClocks_eq, same]
    by_cases hero : 0 < row.heroId
    · simp [hero]
    · have absent : timeline.find? (fun _ => false) = none := List.find?_eq_none.mpr (by simp)
      simp [hero, absent]

/-- A row of no hero, with a clock. -/
def herolessRow (clock : Int32) : Draft where
  time := 0
  tick := 0
  slot := -1
  accountId := 0
  isPick := false
  heroId := 0
  team := 0
  ord := 0
  clock
  extraTimeRadiant := 0
  extraTimeDire := 0

/-- The timeline has a clock for the entry of the row, and the row is stamped with 0. -/
theorem heroless_clock_passed_over :
    let timeline := [herolessRow 5]
    let seq := [herolessRow 3]
    timeline.find? (·.entry = (herolessRow 3).entry) = some (herolessRow 5) ∧
      stampFrom (firstClocks timeline) seq = [herolessRow 0] := by
  exact ⟨by decide, by decide⟩

end Persist
end DotaCollector
