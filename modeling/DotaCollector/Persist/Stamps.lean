import DotaCollector.Persist.Record

/-!
# The post-game stamps of a match

`seq_fetched_at` and `details_fetched_at` are written once and never cleared: a match whose
post-game record has been written stays so under every operation on `matches`.
-/

namespace DotaCollector
namespace Persist

open Nullable

/-! ## The row of one match -/

theorem onMatch_some (matchId : MatchId) (row : MatchRow) (change : Operation) :
    onMatch matchId (some row) change = some (change.onRow matchId row) :=
  change.apply_eq_onRow (by simp [oneMatch])

theorem onMatch_none {matchId : MatchId} {change : Operation}
    (inserts : change.insertedRow matchId = none) : onMatch matchId none change = none := by
  have step := change.rowSteps (oneMatch matchId none) matchId
  rw [onMatch]
  generalize change.apply (oneMatch matchId none) matchId = row at step ⊢
  rw [show oneMatch matchId none matchId = none by simp [oneMatch]] at step
  cases step with
  | absent => rfl
  | insert inserted => cases inserts.symm.trans inserted

theorem onMatch_insertUndiscoveredMatch (now : Time) (facts : MatchFacts) (fetched : Fetched)
    (row : Option MatchRow) :
    onMatch facts.matchId row (.insertUndiscoveredMatch now facts fetched) =
      some (row.getD (facts.undiscovered now fetched)) := by
  simp [onMatch, oneMatch, Operation.apply, insertUndiscoveredMatch]

/-! ## Written stamps -/

theorem postgameWritten_undiscovered (now : Time) (facts : MatchFacts) (fetched : Fetched) :
    postgameWritten (facts.undiscovered now fetched) := by
  cases fetched <;> rfl

theorem postgameWritten_linkSeries (seriesId : Int) (row : MatchRow) :
    postgameWritten (row.linkSeries seriesId) = postgameWritten row := by
  rw [MatchRow.linkSeries]
  split <;> rfl

theorem postgameWritten_save (now : Time) (facts : MatchFacts) (fetched : Fetched)
    (row : MatchRow) : postgameWritten (facts.save now fetched row) := by
  cases fetched <;> cases seq : row.seqFetchedAt <;> cases details : row.detailsFetchedAt <;>
    simp [postgameWritten, MatchFacts.save, seq, details]

theorem postgameWritten_stampSeq (now : Time) (row : MatchRow) :
    postgameWritten (row.stampSeq now) := by
  cases seq : row.seqFetchedAt <;> simp [postgameWritten, MatchRow.stampSeq, seq]

private theorem postgameWritten_relistAll (listings : List HistoryListing) (row : MatchRow) :
    postgameWritten (row.relistAll listings) = postgameWritten row := by
  induction listings generalizing row with
  | nil => rfl
  | cons listing listings ih => exact ih (listing.relist row)

/-- No operation clears a stamp. -/
theorem postgameWritten_onRow {row : MatchRow} (written : postgameWritten row)
    (matchId : MatchId) (change : Operation) :
    postgameWritten (change.onRow matchId row) := by
  cases change with
  | insertUndiscoveredMatch | ensureMatchStub => exact written
  | upsertHistoryMatches listings => exact (postgameWritten_relistAll _ row).trans written
  | saveMatchFacts now facts fetched =>
      simp only [Operation.onRow]
      split
      · exact postgameWritten_save now facts fetched row
      · exact written
  | linkSeries linked seriesId =>
      simp only [Operation.onRow]
      split
      · exact (postgameWritten_linkSeries seriesId row).trans written
      · exact written
  | markSeqFetched now matchIds =>
      simp only [Operation.onRow]
      split
      · exact postgameWritten_stampSeq now row
      · exact written
  | noteLiveFeedMisses feed seenIds =>
      cases feed <;> simp only [Operation.onRow] <;> split <;> exact written
  | markHistoryAvailable now listing =>
      simp only [Operation.onRow, HistoryListing.available]
      split
      · split <;> exact written
      · exact written
  | stampMatchSeqAttempt stamped nextAttemptAt bump clear =>
      cases clear <;> simp only [Operation.onRow] <;> split <;> exact written
  | _ =>
      simp only [Operation.onRow]
      split <;> exact written

end Persist
end DotaCollector
