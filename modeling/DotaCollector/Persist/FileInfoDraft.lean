import DotaCollector.Persist.DraftSequence

/-!
# The draft of the file info

A demo ends with a file info, whose picks and bans become the official sequence. A parse without a
timeline takes its draft from them as well: the loop appends a row while the draft is empty, which
it is no longer behind the first row.
-/

namespace DotaCollector
namespace Persist
namespace FileInfo

open Parse.DraftTimeline (Draft)

/-- An entry of `picks_bans`. -/
structure HeroSelectEvent where
  isPick : Bool
  team : UInt32
  heroId : Int32

/-- The drafts of a result, and what a header is made of. -/
structure Session where
  clock : Int32 := 0
  tick : UInt32 := 0
  pickBans : List Draft := []
  draft : List Draft := []

def HeroSelectEvent.row (clock : Int32) (tick : UInt32) (place : Nat) (event : HeroSelectEvent) :
    Draft where
  time := clock
  tick
  slot := -1
  accountId := 0
  isPick := event.isPick
  heroId := event.heroId
  team := if event.team = 3 ∨ event.team = 1 then 1 else 0
  ord := UInt16.ofNat place
  clock := 0
  extraTimeRadiant := 0
  extraTimeDire := 0

/-- The loop over the entries, from a place on. -/
def mergeFrom : Nat → List (Option HeroSelectEvent) → Session → Session
  | _, [], session => session
  | place, none :: picks, session => mergeFrom (place + 1) picks session
  | place, some event :: picks, session =>
      let row := event.row session.clock session.tick place
      let session := { session with pickBans := session.pickBans ++ [row] }
      mergeFrom (place + 1) picks
        (if session.draft.length = 0 then { session with draft := session.draft ++ [row] }
        else session)

def mergeFileInfoDraft (session : Session) (picks : List (Option HeroSelectEvent)) : Session :=
  if picks.length = 0 then session else mergeFrom 0 picks { session with pickBans := [] }

/-! ## Properties -/

/-- The rows of the entries, in their order; an entry which is nil has none. -/
def rowsOf (session : Session) (picks : List (Option HeroSelectEvent)) : List Draft :=
  picks.zipIdx.filterMap fun (event, place) => event.map (·.row session.clock session.tick place)

/-- A parse without a timeline has the rows of all entries for its draft, and publishes what they
make where the official sequence does not look complete; one with a timeline keeps it. -/
structure Complete (session : Session) (picks : List (Option HeroSelectEvent)) : Prop where
  official : picks ≠ [] → (mergeFileInfoDraft session picks).pickBans = rowsOf session picks
  draft : session.draft = [] → (mergeFileInfoDraft session picks).draft = rowsOf session picks
  published : session.draft = [] → picks ≠ [] →
    draftSequenceOK (mergeFileInfoDraft session picks).pickBans = false →
      publishedSequence (mergeFileInfoDraft session picks).pickBans
        (mergeFileInfoDraft session picks).draft = compactDraft (rowsOf session picks)
  kept : session.draft ≠ [] → (mergeFileInfoDraft session picks).draft = session.draft

/-! ## The loop -/

variable {session : Session} {picks : List (Option HeroSelectEvent)}

/-- The rows of the entries from a place on. -/
def rowsFrom (session : Session) (place : Nat) (picks : List (Option HeroSelectEvent)) :
    List Draft :=
  (picks.zipIdx place).filterMap fun (event, place) =>
    event.map (·.row session.clock session.tick place)

theorem rowsFrom_none (session : Session) (place : Nat) (picks : List (Option HeroSelectEvent)) :
    rowsFrom session place (none :: picks) = rowsFrom session (place + 1) picks := rfl

theorem rowsFrom_some (session : Session) (place : Nat) (event : HeroSelectEvent)
    (picks : List (Option HeroSelectEvent)) :
    rowsFrom session place (some event :: picks) =
      event.row session.clock session.tick place :: rowsFrom session (place + 1) picks := rfl

theorem length_rowsFrom (session : Session) (place : Nat)
    (picks : List (Option HeroSelectEvent)) :
    (rowsFrom session place picks).length = (picks.filter Option.isSome).length := by
  induction picks generalizing place with
  | nil => rfl
  | cons event picks ih =>
      cases event with
      | none => simpa [rowsFrom_none] using ih (place + 1)
      | some event => simpa [rowsFrom_some] using ih (place + 1)

/-- Every row goes to the official sequence. The draft gets the first one where it is empty. -/
theorem mergeFrom_eq (place : Nat) (picks : List (Option HeroSelectEvent)) (session : Session) :
    mergeFrom place picks session =
      { session with
        pickBans := session.pickBans ++ rowsFrom session place picks
        draft :=
          if session.draft = [] then (rowsFrom session place picks).take 1 else session.draft } := by
  induction picks generalizing place session with
  | nil =>
      obtain ⟨clock, tick, pickBans, draft⟩ := session
      cases draft <;> simp [mergeFrom, rowsFrom]
  | cons event picks ih =>
      cases event with
      | none => rw [mergeFrom, ih, rowsFrom_none]
      | some event =>
          rw [mergeFrom, ih, rowsFrom_some]
          cases draft : session.draft with
          | nil => simp [rowsFrom]
          | cons row rows => simp [rowsFrom]

theorem pickBans_mergeFileInfoDraft (session : Session) (present : picks ≠ []) :
    (mergeFileInfoDraft session picks).pickBans = rowsOf session picks := by
  rw [mergeFileInfoDraft, if_neg (mt List.length_eq_zero_iff.mp present), mergeFrom_eq]
  rfl

theorem draft_mergeFileInfoDraft (session : Session) (picks : List (Option HeroSelectEvent)) :
    (mergeFileInfoDraft session picks).draft =
      if session.draft = [] then (rowsOf session picks).take 1 else session.draft := by
  cases picks with
  | nil =>
      rw [mergeFileInfoDraft, List.length_nil, if_pos rfl]
      split_ifs with empty
      · rw [empty]
        rfl
      · rfl
  | cons event picks =>
      rw [mergeFileInfoDraft, if_neg (by simp), mergeFrom_eq]
      rfl

/-- The draft of the file info is complete exactly when the timeline has left rows or at most one
entry is not nil. -/
theorem fileInfo_complete_iff (session : Session) (picks : List (Option HeroSelectEvent)) :
    Complete session picks ↔
      session.draft ≠ [] ∨ (picks.filter Option.isSome).length ≤ 1 := by
  have length : (rowsOf session picks).length = (picks.filter Option.isSome).length :=
    length_rowsFrom session 0 picks
  rw [← length]
  constructor
  · intro complete
    refine or_iff_not_imp_left.mpr fun timeline => ?_
    have empty := not_not.mp timeline
    have whole := complete.draft empty
    rw [draft_mergeFileInfoDraft, if_pos empty] at whole
    rw [← whole]
    exact List.length_take_le 1 _
  · intro short
    have draft : session.draft = [] →
        (mergeFileInfoDraft session picks).draft = rowsOf session picks := by
      intro empty
      rw [draft_mergeFileInfoDraft, if_pos empty]
      exact List.take_of_length_le (short.resolve_left (not_not.mpr empty))
    refine ⟨pickBans_mergeFileInfoDraft session, draft, fun empty _ incomplete => ?_,
      fun timeline => ?_⟩
    · rw [publishedSequence, incomplete, draft empty]
      rfl
    · rw [draft_mergeFileInfoDraft, if_neg timeline]

/-- A game without bans: ten heroes are picked. -/
def tenPicks : List (Option HeroSelectEvent) :=
  (List.range 10).map fun place =>
    some { isPick := true, team := if place < 5 then 2 else 3, heroId := Int32.ofNat (place + 1) }

/-- One pick of ten is published. -/
theorem nine_picks_lost :
    ((mergeFileInfoDraft {} tenPicks).draft.map Draft.heroId) = [1] ∧
      (publishedSequence (mergeFileInfoDraft {} tenPicks).pickBans
        (mergeFileInfoDraft {} tenPicks).draft).map Draft.heroId = [1] ∧
      (rowsOf {} tenPicks).length = 10 ∧ ¬ Complete {} tenPicks := by
  refine ⟨by decide, by decide, by decide, fun complete => ?_⟩
  have lengths := congrArg List.length (complete.draft rfl)
  revert lengths
  decide

end FileInfo
end Persist
end DotaCollector
