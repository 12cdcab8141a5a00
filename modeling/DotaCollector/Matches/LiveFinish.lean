import DotaCollector.Matches.System

/-!
# When a live match finishes

Each live feed counts its misses of a match in a column of its own. The history variable of a
feed is the number of its polls which completed without the match since the feed last listed it,
and the column never exceeds it. A finish needs every listing feed at the threshold, so the
history variables of these feeds are at the threshold as well.
-/

namespace DotaCollector

/-! ## The history variable of a feed -/

/-- The polls of a feed completed without a match since its last sighting, after an operation. -/
def pollsAfter (feed : LiveIngest) (matchId : MatchId) (polls : Nat) : Operation → Nat
  | .touchMatchLive _ sighting =>
      if sighting.ingest = feed ∧ sighting.matchId = matchId then 0 else polls
  | .noteLiveFeedSeen _ seenBy seen => if seenBy = feed ∧ seen = matchId then 0 else polls
  | .noteLiveFeedMisses polled seenIds =>
      if polled = feed ∧ matchId ∉ seenIds then polls + 1 else polls
  | _ => polls

/-- The polls of a feed completed without a match since the last sighting in a run. -/
def pollsWithout (feed : LiveIngest) (matchId : MatchId) (operations : List Operation) : Nat :=
  operations.foldl (pollsAfter feed matchId) 0

theorem pollsWithout_append_singleton (feed : LiveIngest) (matchId : MatchId)
    (operations : List Operation) (operation : Operation) :
    pollsWithout feed matchId (operations ++ [operation]) =
      pollsAfter feed matchId (pollsWithout feed matchId operations) operation := by
  simp [pollsWithout]

theorem pollsAfter_mono (feed : LiveIngest) (matchId : MatchId) (operation : Operation)
    {fewer more : Nat} (le : fewer ≤ more) :
    pollsAfter feed matchId fewer operation ≤ pollsAfter feed matchId more operation := by
  cases operation <;> simp only [pollsAfter]
  case touchMatchLive | noteLiveFeedSeen => split <;> omega
  case noteLiveFeedMisses => split <;> omega
  all_goals exact le

/-! ## The columns stay below -/

theorem missedPolls_liveSighting (now : Time) (seenBy feed : LiveIngest) (row : MatchRow) :
    (liveSightingResumeSet now (seenBy = .liveLeague) (seenBy = .topLive) row).missedPolls feed =
      if seenBy = feed then 0 else row.missedPolls feed := by
  cases seenBy <;> cases feed <;> simp [liveSightingResumeSet, MatchRow.missedPolls]

theorem missedPolls_merge (now : Time) (sighting : LiveSighting) (feed : LiveIngest)
    (row : MatchRow) :
    (sighting.merge now row).missedPolls feed =
      if sighting.ingest = feed then 0 else row.missedPolls feed := by
  rw [← missedPolls_liveSighting now]
  cases feed <;> rfl

theorem missedPolls_missPoll (polled feed : LiveIngest) (row : MatchRow) :
    (row.missPoll polled).missedPolls feed =
      if polled = feed then row.missedPolls feed + 1 else row.missedPolls feed := by
  cases polled <;> cases feed <;> simp [MatchRow.missPoll, MatchRow.missedPolls]

theorem missedPolls_relistAll (row : MatchRow) (listings : List HistoryListing)
    (feed : LiveIngest) : (row.relistAll listings).missedPolls feed = row.missedPolls feed := by
  induction listings generalizing row with
  | nil => rfl
  | cons listing listings ih =>
      have unchanged : (listing.relist row).missedPolls feed = row.missedPolls feed := by
        cases feed <;> rfl
      rw [← unchanged]
      exact ih (listing.relist row)

/-- A column grows at most as the history variable does. -/
theorem missedPolls_onRow_le (feed : LiveIngest) (matchId : MatchId) (row : MatchRow)
    (operation : Operation) :
    (operation.onRow matchId row).missedPolls feed ≤
      pollsAfter feed matchId (row.missedPolls feed) operation := by
  cases operation with
  | touchMatchLive now sighting =>
      simp only [Operation.onRow, pollsAfter]
      by_cases same : matchId = sighting.matchId
      · simp [same, missedPolls_merge]
      · simp [same, Ne.symm same]
  | noteLiveFeedSeen now seenBy seen =>
      simp only [Operation.onRow, pollsAfter]
      by_cases same : matchId = seen
      · simp [same, missedPolls_liveSighting]
      · simp [same, Ne.symm same]
  | noteLiveFeedMisses polled seenIds =>
      simp only [Operation.onRow, pollsAfter]
      by_cases counted : missedBy polled seenIds matchId row = true
      · have unseen : matchId ∉ seenIds := by
          simp only [missedBy, Bool.and_eq_true, decide_eq_true_eq] at counted
          exact counted.2
        simp [counted, unseen, missedPolls_missPoll]
      · rw [if_neg counted]
        split <;> omega
  | upsertHistoryMatches listings => exact (missedPolls_relistAll row _ feed).le
  | finishMissingLiveMatches | saveMatchFacts | recordHistoryPollMisses =>
      simp only [Operation.onRow, pollsAfter]
      split <;> cases feed <;> exact Nat.le_refl _
  | markHistoryAvailable now listing =>
      simp only [Operation.onRow, pollsAfter, HistoryListing.available]
      split_ifs <;> cases feed <;> exact Nat.le_refl _
  | linkSeries linked seriesId =>
      simp only [Operation.onRow, pollsAfter, MatchRow.linkSeries]
      split_ifs <;> cases feed <;> exact Nat.le_refl _
  | stampMatchSeqAttempt stamped nextAttemptAt bump clear =>
      simp only [Operation.onRow, pollsAfter, MatchRow.stampAttempt]
      split_ifs <;> cases feed <;> exact Nat.le_refl _
  | insertUndiscoveredMatch | ensureMatchStub => exact Nat.le_refl _
  | _ =>
      simp only [Operation.onRow, pollsAfter]
      split <;> cases feed <;> exact Nat.le_refl _

/-- An inserted row starts without misses. -/
theorem missedPolls_insertedRow {operation : Operation} {matchId : MatchId} {row : MatchRow}
    (inserted : operation.insertedRow matchId = some row) (feed : LiveIngest) :
    row.missedPolls feed = 0 := by
  cases operation with
  | touchMatchLive | insertUndiscoveredMatch | ensureMatchStub =>
      obtain ⟨-, ⟨⟩⟩ := Option.ite_none_right_eq_some.mp inserted
      cases feed <;> rfl
  | upsertHistoryMatches listings =>
      simp only [Operation.insertedRow] at inserted
      split at inserted
      · cases inserted
      · cases inserted
        rw [missedPolls_relistAll]
        cases feed <;> rfl
  | _ => cases inserted

/-- In every table reached, no column exceeds the history variable of its feed. -/
theorem missedPolls_le_pollsWithout (history : List Operation) (matchId : MatchId)
    {row : MatchRow} (found : runOperations Table.empty history matchId = some row)
    (feed : LiveIngest) : row.missedPolls feed ≤ pollsWithout feed matchId history := by
  induction history using List.reverseRecOn generalizing row with
  | nil => cases found
  | append_singleton history operation ih =>
      rw [runOperations_append] at found
      have step := operation.rowSteps (runOperations Table.empty history) matchId
      rw [show operation.apply (runOperations Table.empty history) matchId = some row from found]
        at step
      rw [pollsWithout_append_singleton]
      generalize before_eq : runOperations Table.empty history matchId = before at step
      cases step with
      | insert inserted => simp [missedPolls_insertedRow inserted]
      | change changed =>
          subst changed
          calc (operation.onRow matchId _).missedPolls feed
              ≤ pollsAfter feed matchId (MatchRow.missedPolls _ feed) operation :=
                missedPolls_onRow_le feed matchId _ operation
            _ ≤ pollsAfter feed matchId (pollsWithout feed matchId history) operation :=
                pollsAfter_mono feed matchId operation (ih before_eq)

/-! ## The two forms of the finish condition -/

/-- The `WHERE` clause selects the live rows for which `liveFeedsDone` holds. -/
theorem finishSelects_eq_liveFeedsDone (threshold : Nat) (row : MatchRow) :
    finishSelects threshold row =
      (row.status = .live && liveFeedsDone row.ingestSources row.liveLeagueMissedPolls
        row.topLiveMissedPolls threshold) := by
  simp only [finishSelects, liveFeedsDone]
  by_cases hasLive : IngestSource.liveLeague ∈ row.ingestSources <;>
    by_cases hasTop : IngestSource.topLive ∈ row.ingestSources <;>
    by_cases liveDone : row.liveLeagueMissedPolls < threshold <;>
    by_cases topDone : row.topLiveMissedPolls < threshold <;>
    simp [hasLive, hasTop, liveDone, topDone, Nat.not_le.mpr, Nat.not_lt.mp]

/-- A selected row has missed the threshold on every feed which lists it. -/
theorem threshold_le_missedPolls {threshold : Nat} {row : MatchRow}
    (selected : finishSelects threshold row = true) {feed : LiveIngest}
    (listed : feed.source ∈ row.ingestSources) : threshold ≤ row.missedPolls feed := by
  simp only [finishSelects, Bool.and_eq_true, Bool.or_eq_true, decide_eq_true_eq] at selected
  obtain ⟨⟨-, liveDone⟩, topDone⟩ := selected
  cases feed with
  | liveLeague => exact liveDone.resolve_left fun absent => absent listed
  | topLive => exact topDone.resolve_left fun absent => absent listed

/-- A finish moves a live match only after every feed which lists it has completed the threshold
of polls without it since its last sighting, and the `WHERE` clause of the finish agrees with
`liveFeedsDone` on every row. -/
theorem live_finish_sound (history : List Operation) (now : Time) (threshold : Nat)
    (replayDelayMs : Int) (matchId : MatchId) (row : MatchRow)
    (found : runOperations Table.empty history matchId = some row) :
    (∀ later,
      finishMissingLiveMatches (runOperations Table.empty history) now threshold replayDelayMs
        matchId = some later →
      row.status = .live → later.status ≠ .live →
      ∀ feed : LiveIngest, feed.source ∈ row.ingestSources →
        threshold ≤ pollsWithout feed matchId history) ∧
    finishSelects threshold row =
      (row.status = .live && liveFeedsDone row.ingestSources row.liveLeagueMissedPolls
        row.topLiveMissedPolls threshold) := by
  refine ⟨?_, finishSelects_eq_liveFeedsDone threshold row⟩
  intro later finished live left feed listed
  have selected : finishSelects threshold row = true := by
    by_contra skipped
    simp only [finishMissingLiveMatches, Table.updateWhere, found, Option.map_some, skipped,
      if_false, Option.some_inj] at finished
    exact left (finished ▸ live)
  calc threshold ≤ row.missedPolls feed := threshold_le_missedPolls selected listed
    _ ≤ pollsWithout feed matchId history := missedPolls_le_pollsWithout history matchId found feed

/-- A match listed once by the league feed, then missed twice, finishes at a threshold of two. -/
theorem live_finish_sound_missed_twice :
    2 ≤ pollsWithout .liveLeague 7
      [.touchMatchLive 0 ⟨7, fun _ => none, .liveLeague⟩, .noteLiveClock 7 30,
        .noteLiveFeedMisses .liveLeague [8], .noteLiveFeedMisses .liveLeague []] :=
  (live_finish_sound
    [.touchMatchLive 0 ⟨7, fun _ => none, .liveLeague⟩, .noteLiveClock 7 30,
      .noteLiveFeedMisses .liveLeague [8], .noteLiveFeedMisses .liveLeague []]
    50 2 60000 7 _ rfl).1 _ rfl rfl (by rintro ⟨⟩) .liveLeague (by decide)

end DotaCollector
