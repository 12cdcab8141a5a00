import Mathlib.Data.List.Basic
import DotaCollector.Library.Stream
import DotaCollector.Matches.Row

/-!
# Cursor arithmetic of the sequence walk

The matches of the global stream as the sequence API returns them, and what the walk computes
from a page: its professional matches, its highest number, and the cursors of a claim and of a
rewind.
-/

namespace DotaCollector
namespace SeqWalk

/-- A match of the sequence API. -/
structure SeqMatch where
  matchId : MatchId
  matchSeqNum : Nat
  leagueid : Option Int := none
  leagueId : Option Int := none
  deriving DecidableEq

/-- `asNumber(raw.leagueid) ?? asNumber(raw.league_id) ?? 0`. -/
def leagueIdOf (raw : SeqMatch) : Int := (raw.leagueid <|> raw.leagueId).getD 0

def isProfessionalSeqMatch (raw : SeqMatch) : Bool := 0 < leagueIdOf raw

def professionalSeqMatches (page : List SeqMatch) : List SeqMatch :=
  page.filter isProfessionalSeqMatch

/-- One turn of the loop of `highestSeqNum`. -/
def higherSeqNum (max : Option Nat) (raw : SeqMatch) : Option Nat :=
  match max with
  | none => some raw.matchSeqNum
  | some max => if max < raw.matchSeqNum then some raw.matchSeqNum else some max

def highestSeqNum (page : List SeqMatch) : Option Nat := page.foldl higherSeqNum none

def claimAdvance (cursor batchSize : Nat) : Nat := cursor + batchSize

def seqWalkRewind : Nat := 2000

def rewindSeqWalkCursor (startAt : Nat) : Nat := max 1 (startAt - seqWalkRewind)

/-- `bumpSeqWalkCursor`: the statement is `GREATEST`. -/
def bumpSeqWalkCursor (cursor highestSeq : Nat) : Nat :=
  if highestSeq < 1 then cursor else max cursor highestSeq

/-- The Steam call: the first matches, at most as many as requested, from a number on. -/
def getMatchHistoryBySequenceNum (published : List SeqMatch) (startAt requested : Nat) :
    List SeqMatch :=
  Stream.window SeqMatch.matchSeqNum published startAt requested

/-! ## The highest number of a page -/

theorem foldl_higherSeqNum (page : List SeqMatch) (start : Nat) :
    ∃ highest, page.foldl higherSeqNum (some start) = some highest ∧ start ≤ highest ∧
      (highest = start ∨ ∃ raw ∈ page, raw.matchSeqNum = highest) := by
  induction page generalizing start with
  | nil => exact ⟨start, rfl, le_rfl, .inl rfl⟩
  | cons raw page ih =>
      rw [List.foldl_cons, higherSeqNum]
      split
      · obtain ⟨highest, folded, kept, attained⟩ := ih raw.matchSeqNum
        refine ⟨highest, folded, by omega, .inr ?_⟩
        rcases attained with rfl | ⟨other, found, same⟩
        · exact ⟨raw, List.mem_cons_self .., rfl⟩
        · exact ⟨other, List.mem_cons_of_mem _ found, same⟩
      · obtain ⟨highest, folded, kept, attained⟩ := ih start
        refine ⟨highest, folded, kept, attained.imp_right ?_⟩
        rintro ⟨other, found, same⟩
        exact ⟨other, List.mem_cons_of_mem _ found, same⟩

/-- The highest number of a page is that of one of its matches. -/
theorem exists_highestSeqNum {page : List SeqMatch} (nonempty : page ≠ []) :
    ∃ raw ∈ page, highestSeqNum page = some raw.matchSeqNum := by
  cases page with
  | nil => exact absurd rfl nonempty
  | cons raw page =>
      obtain ⟨highest, folded, -, attained⟩ := foldl_higherSeqNum page raw.matchSeqNum
      rcases attained with rfl | ⟨other, found, same⟩
      · exact ⟨raw, List.mem_cons_self .., folded⟩
      · exact ⟨other, List.mem_cons_of_mem _ found, same ▸ folded⟩

end SeqWalk
end DotaCollector
