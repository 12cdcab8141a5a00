import DotaCollector.Parser.DraftTimeline
import DotaCollector.Persist.Record

/-!
# The draft of a parsed replay

The parser publishes the official sequence of the demo with the clocks of the timeline, or, where
that sequence does not look complete, the entries of the timeline themselves. A stored draft which
looks complete is only given the clocks it misses; any other one is replaced.
-/

namespace DotaCollector
namespace Persist

open Script
open Parse.DraftTimeline (Draft)

/-! ## The sequence -/

def draftSequenceOK (rows : List Draft) : Bool :=
  draftLooksComplete rows.length (rows.countP fun row => 0 < row.heroId && row.isPick)

/-- The row is the entry of a hero. -/
def sameEntry (heroId : Int32) (isPick : Bool) (row : Draft) : Bool :=
  row.heroId = heroId && row.isPick = isPick

/-- The clock of the first row of an entry, 0 where there is none. -/
def firstClock (timeline : List Draft) (heroId : Int32) (isPick : Bool) : Int32 :=
  ((timeline.find? fun row => 0 < row.heroId && sameEntry heroId isPick row).map
    Draft.clock).getD 0

def stampDraftClocks (seq timeline : List Draft) : List Draft :=
  seq.map fun row => { row with clock := firstClock timeline row.heroId row.isPick }

/-- The loop of `compactDraft`, with the rows which it has kept. -/
def compactFrom : List Draft → List Draft → List Draft
  | kept, [] => kept
  | kept, row :: rows =>
      if row.heroId ≤ 0 then compactFrom kept rows
      else if kept.any (sameEntry row.heroId row.isPick) then compactFrom kept rows
      else
        let kept := kept ++ [{ row with ord := UInt16.ofNat kept.length }]
        if 32 ≤ kept.length then kept else compactFrom kept rows

def compactDraft (rows : List Draft) : List Draft := compactFrom [] rows

/-- What `publishDraft` publishes. -/
def publishedSequence (pickBans timeline : List Draft) : List Draft :=
  if draftSequenceOK pickBans then stampDraftClocks pickBans timeline else compactDraft timeline

/-! ## The statements -/

/-- The parameters of an `UPDATE` of a clock. -/
def pickOf (row : Draft) : DraftPick where
  ord := row.ord.toNat
  isPick := row.isPick
  heroId := row.heroId.toInt
  team := row.team
  playerSlot := none
  clock := some row.clock.toInt

/-- The inserted row. -/
def storedRow (sides : Option Int × Option Int) (row : Draft) : DraftRow where
  ord := row.ord.toNat
  isPick := row.isPick
  heroId := row.heroId.toInt
  team := row.team
  playerSlot := if row.slot < 0 then none else some row.slot
  clock := some row.clock.toInt
  teamId := if row.team = 0 then sides.1 else if row.team = 1 then sides.2 else none

/-- One `UPDATE` of the branch which keeps the rows. -/
def publishClock (row : Draft) : Writer Unit :=
  if row.heroId ≤ 0 ∨ row.clock = 0 then return () else issue (.stampDraftClock (pickOf row))

/-- One `INSERT` of the branch which replaces the rows. -/
def publishRow (row : Draft) : Writer Unit := do
  let sides ← ask .matchSideTeamIds
  issue (.insertDraft [storedRow sides row])

def publishDraft (pickBans timeline : List Draft) : Writer Unit := do
  let seq := publishedSequence pickBans timeline
  let counts ← ask .countDraft
  if draftLooksComplete counts.n counts.picks then do
    forEach publishClock seq
    fillDraftPlayerSlots
  else if seq.isEmpty then return ()
  else do
    issue .deleteDraft
    forEach publishRow seq
    fillDraftPlayerSlots

/-! ## The clocks of the sequence -/

variable {timeline front rest kept : List Draft} {row : Draft}

/-- What `compactDraft` has kept of the rows it has read: the first of each entry. -/
structure Compacts (front kept : List Draft) : Prop where
  first : ∀ row ∈ kept, ∃ source, source.clock = row.clock ∧ front.find? (fun other =>
    0 < other.heroId && sameEntry row.heroId row.isPick other) = some source
  all : ∀ row ∈ front, 0 < row.heroId → kept.any (sameEntry row.heroId row.isPick) = true

theorem Compacts.clock (compacts : Compacts front kept) (rest : List Draft) (member : row ∈ kept) :
    row.clock = firstClock (front ++ rest) row.heroId row.isPick := by
  obtain ⟨source, same, found⟩ := compacts.first row member
  rw [firstClock, List.find?_append, found]
  exact same.symm

/-- A row without a hero, or of an entry which is kept, is passed over. -/
theorem Compacts.pass (compacts : Compacts front kept)
    (known : 0 < row.heroId → kept.any (sameEntry row.heroId row.isPick) = true) :
    Compacts (front ++ [row]) kept where
  first other member := by
    obtain ⟨source, same, found⟩ := compacts.first other member
    refine ⟨source, same, ?_⟩
    rw [List.find?_append, found]
    rfl
  all other member hero := by
    rcases List.mem_append.mp member with member | member
    · exact compacts.all other member hero
    · cases List.mem_singleton.mp member
      exact known hero

/-- A row of a new entry is kept. -/
theorem Compacts.keep (compacts : Compacts front kept) (hero : 0 < row.heroId)
    (fresh : kept.any (sameEntry row.heroId row.isPick) = false) (ord : UInt16) :
    Compacts (front ++ [row]) (kept ++ [{ row with ord }]) where
  first other member := by
    rcases List.mem_append.mp member with member | member
    · obtain ⟨source, same, found⟩ := compacts.first other member
      refine ⟨source, same, ?_⟩
      rw [List.find?_append, found]
      rfl
    · cases List.mem_singleton.mp member
      refine ⟨row, rfl, ?_⟩
      have unread : front.find? (fun other =>
          0 < other.heroId && sameEntry row.heroId row.isPick other) = none := by
        refine List.find?_eq_none.mpr fun other listed same => ?_
        obtain ⟨positive, entry⟩ := Bool.and_eq_true_iff.mp same
        have again := compacts.all other listed (of_decide_eq_true positive)
        simp only [sameEntry, Bool.and_eq_true, decide_eq_true_eq] at entry
        rw [entry.1, entry.2, fresh] at again
        cases again
      rw [List.find?_append, unread]
      simp [sameEntry, hero]
  all other member positive := by
    rw [List.any_append, Bool.or_eq_true]
    rcases List.mem_append.mp member with member | member
    · exact .inl (compacts.all other member positive)
    · cases List.mem_singleton.mp member
      exact .inr (by simp [sameEntry])

theorem clock_compactFrom (compacts : Compacts front kept) :
    ∀ row ∈ compactFrom kept rest,
      row.clock = firstClock (front ++ rest) row.heroId row.isPick := by
  induction rest generalizing front kept with
  | nil => exact fun row member => compacts.clock [] member
  | cons next rest ih =>
      intro row member
      rw [compactFrom] at member
      rw [List.append_cons]
      split_ifs at member with none known
      · exact ih (compacts.pass fun hero => (Int32.not_le.mpr hero none).elim) row member
      · exact ih (compacts.pass fun _ => known) row member
      · have keeps := compacts.keep (Int32.not_le.mp none) (Bool.eq_false_of_not_eq_true known)
          (UInt16.ofNat kept.length)
        dsimp only at member
        split at member
        · exact keeps.clock rest member
        · exact ih keeps row member

/-- Whichever sequence is published, its clocks are the first ones of the timeline. -/
theorem clock_publishedSequence {pickBans : List Draft}
    (member : row ∈ publishedSequence pickBans timeline) :
    row.clock = firstClock timeline row.heroId row.isPick := by
  rw [publishedSequence] at member
  split at member
  · obtain ⟨listed, -, rfl⟩ := List.mem_map.mp member
    rfl
  · have start : Compacts [] [] := ⟨by simp, by simp⟩
    exact clock_compactFrom start row member

end Persist
end DotaCollector
