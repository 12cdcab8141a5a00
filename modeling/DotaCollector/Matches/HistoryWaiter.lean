import DotaCollector.Matches.System

/-!
# The history waiter of a finished match

A live finish parks a match in `awaiting_history` and arms `history_next_poll_at`; the poller
selects the armed rows without a `match_seq_num`. A league page may list a match while it is
still live, which stores its `match_seq_num` and keeps it live. The later finish arms a waiter
which the selection skips, and this is the only step which strands a match.
-/

namespace DotaCollector

namespace MatchRow

/-- A match waiting for history is in the selection of the history poller. -/
def HistoryArmed (row : MatchRow) : Prop :=
  row.status = .awaitingHistory → row.historyWaiterPending = true

/-- Only a match which waits for history can be stranded. -/
theorem historyArmed_of_ne {row : MatchRow} (status : row.status ≠ .awaitingHistory) :
    row.HistoryArmed :=
  fun waiting => absurd waiting status

/-- A change which leaves the status and the waiter alone. -/
theorem HistoryArmed.of_eq {before after : MatchRow} (armed : before.HistoryArmed)
    (status : after.status = before.status)
    (pending : after.historyWaiterPending = before.historyWaiterPending) :
    after.HistoryArmed := by
  intro waiting
  rw [pending]
  exact armed (status ▸ waiting)

theorem HistoryArmed.ite {condition : Prop} [Decidable condition] {row next : MatchRow}
    (armed : row.HistoryArmed) (changed : condition → next.HistoryArmed) :
    (if condition then next else row).HistoryArmed := by
  split
  · rename_i holds
    exact changed holds
  · exact armed

end MatchRow

open MatchRow

/-! ## The effect of one operation -/

theorem historyArmed_liveSighting (now : Time) (resetLive resetTop : Bool) (row : MatchRow) :
    (liveSightingResumeSet now resetLive resetTop row).HistoryArmed := by
  refine historyArmed_of_ne ?_
  simp only [liveSightingResumeSet]
  split
  · rename_i kept
    intro waiting
    simp [waiting, keepOnLiveSighting] at kept
  · rintro ⟨⟩

theorem historyArmed_available {row : MatchRow} (armed : row.HistoryArmed) (now : Time)
    (listing : HistoryListing) : (listing.available now row).HistoryArmed := by
  rw [HistoryListing.available]
  split
  · exact armed
  · refine historyArmed_of_ne ?_
    simp only
    split
    · rintro ⟨⟩
    · rename_i settled
      intro waiting
      simp [waiting] at settled

theorem historyArmed_relist (listing : HistoryListing) (row : MatchRow) :
    (listing.relist row).HistoryArmed := by
  refine historyArmed_of_ne ?_
  simp only [HistoryListing.relist]
  split
  · rename_i kept
    intro waiting
    simp [waiting] at kept
  · rintro ⟨⟩

theorem historyArmed_relistAll {row : MatchRow} (armed : row.HistoryArmed)
    (listings : List HistoryListing) : (row.relistAll listings).HistoryArmed := by
  induction listings generalizing row with
  | nil => exact armed
  | cons listing listings ih => exact ih (historyArmed_relist listing row)

/-- A miss re-arms the waiter it counts, or fails the match. -/
theorem historyArmed_missSet {row : MatchRow} (armed : row.HistoryArmed) (now : Time)
    (budget : HistoryBudget) : ((MissRead.ofRow row).set now budget row).HistoryArmed := by
  intro waiting
  simp only [MissRead.set] at waiting ⊢
  split at waiting
  · cases waiting
  · rename_i kept
    have pending := armed waiting
    simp only [historyWaiterPending, Bool.and_eq_true] at pending ⊢
    have unspent : (MissRead.ofRow row).waiterDone budget = false := by
      simpa [MissRead.failMatch, MissRead.ofRow, waiting] using kept
    simp [unspent, pending.2]

theorem historyArmed_save (now : Time) (facts : MatchFacts) (fetched : Fetched)
    (row : MatchRow) : (facts.save now fetched row).HistoryArmed := by
  refine historyArmed_of_ne ?_
  simp only [MatchFacts.save]
  split
  · rename_i kept
    intro waiting
    simp [waiting] at kept
  · split <;> rintro ⟨⟩

theorem historyArmed_replayMark (now : Time) (mark : ReplayMark) (error : Option String)
    (errorKind : Option ErrorKind) (row : MatchRow) :
    (replayMarkSet now mark.status error errorKind row).HistoryArmed := by
  refine historyArmed_of_ne ?_
  simp only [replayMarkSet]
  split
  · rename_i parsed
    simp [parsed]
  · cases mark <;> rintro ⟨⟩

theorem historyArmed_publish {row : MatchRow} (armed : row.HistoryArmed)
    (barracks : Option (Int × Int)) : (publishSet barracks row).HistoryArmed := by
  intro waiting
  simp only [publishSet] at waiting
  split at waiting
  · cases waiting
  · exact armed waiting

/-- A finish arms a started match exactly when its `match_seq_num` is still unknown. -/
theorem historyArmed_finishSet_iff (now : Time) (replayDelayMs : Int) (row : MatchRow) :
    (finishSet now replayDelayMs row).HistoryArmed ↔
      (0 < row.liveDurationMax → row.matchSeqNum = none) := by
  by_cases started : 0 < row.liveDurationMax
  · simp [HistoryArmed, finishSet, started, historyWaiterPending]
  · simp [HistoryArmed, finishSet, started]

/-- A finish does not select a started match whose `match_seq_num` is already known. -/
def Operation.FinishesUnlisted (row : MatchRow) : Operation → Prop
  | .finishMissingLiveMatches _ threshold _ =>
      finishSelects threshold row = true → 0 < row.liveDurationMax → row.matchSeqNum = none
  | _ => True

theorem historyArmed_onRow_iff {row : MatchRow} (armed : row.HistoryArmed) (matchId : MatchId)
    (operation : Operation) :
    (operation.onRow matchId row).HistoryArmed ↔ operation.FinishesUnlisted row := by
  cases operation with
  | finishMissingLiveMatches now threshold replayDelayMs =>
      simp only [Operation.onRow, Operation.FinishesUnlisted]
      split
      · rename_i selected
        simp [selected, historyArmed_finishSet_iff]
      · rename_i skipped
        simp [skipped, armed]
  | touchMatchLive now sighting =>
      have resumed := historyArmed_liveSighting now (sighting.ingest = .liveLeague)
        (sighting.ingest = .topLive) row
      have seen : (sighting.merge now row).HistoryArmed := resumed.of_eq rfl rfl
      exact iff_of_true (armed.ite fun _ => seen) trivial
  | noteLiveFeedSeen now feed seen =>
      exact iff_of_true (armed.ite fun _ => historyArmed_liveSighting now _ _ row) trivial
  | noteLiveFeedMisses feed seenIds =>
      refine iff_of_true (armed.ite fun _ => ?_) trivial
      cases feed <;> exact armed.of_eq rfl rfl
  | markHistoryAvailable now listing =>
      exact iff_of_true (armed.ite fun _ => historyArmed_available armed now listing) trivial
  | upsertHistoryMatches listings => exact iff_of_true (historyArmed_relistAll armed _) trivial
  | recordHistoryPollMisses now matchIds budget =>
      exact iff_of_true (armed.ite fun _ => historyArmed_missSet armed now budget) trivial
  | insertUndiscoveredMatch | ensureMatchStub => exact iff_of_true armed trivial
  | saveMatchFacts now facts fetched =>
      exact iff_of_true (armed.ite fun _ => historyArmed_save now facts fetched row) trivial
  | linkSeries linked seriesId =>
      refine iff_of_true (armed.ite fun _ => ?_) trivial
      exact armed.ite fun _ => armed.of_eq rfl rfl
  | stampMatchSeqAttempt stamped nextAttemptAt bump clear =>
      refine iff_of_true (armed.ite fun _ => ?_) trivial
      rw [MatchRow.stampAttempt]
      split <;> exact armed.of_eq rfl rfl
  | markMatchReplayStatus now marked mark error errorKind =>
      exact iff_of_true
        (armed.ite fun _ => historyArmed_replayMark now mark error errorKind row) trivial
  | publishMatch published barracks =>
      exact iff_of_true (armed.ite fun _ => historyArmed_publish armed barracks) trivial
  | _ => exact iff_of_true (armed.ite fun _ => armed.of_eq rfl rfl) trivial

/-- An inserted row never waits for history. -/
theorem historyArmed_insertedRow {operation : Operation} {matchId : MatchId} {row : MatchRow}
    (inserted : operation.insertedRow matchId = some row) : row.HistoryArmed := by
  cases operation with
  | touchMatchLive | ensureMatchStub =>
      obtain ⟨-, ⟨⟩⟩ := Option.ite_none_right_eq_some.mp inserted
      exact historyArmed_of_ne (by rintro ⟨⟩)
  | upsertHistoryMatches listings =>
      simp only [Operation.insertedRow] at inserted
      split at inserted
      · cases inserted
      · rename_i first later _
        cases inserted
        have fresh : first.fresh.HistoryArmed := historyArmed_of_ne (by rintro ⟨⟩)
        exact historyArmed_relistAll fresh later
  | insertUndiscoveredMatch now facts fetched =>
      obtain ⟨-, ⟨⟩⟩ := Option.ite_none_right_eq_some.mp inserted
      exact historyArmed_of_ne (by cases fetched <;> simp [MatchFacts.undiscovered])
  | _ => cases inserted

/-! ## Runs -/

/-- Every match of the table which waits for history is selected by the poller. -/
def ArmedMatches (table : Matches) : Prop :=
  table.All fun _ row => row.HistoryArmed

theorem armedMatches_apply_iff {table : Matches} (armed : ArmedMatches table)
    (operation : Operation) :
    ArmedMatches (operation.apply table) ↔
      ∀ matchId row, table matchId = some row → operation.FinishesUnlisted row := by
  constructor
  · intro after matchId row found
    have later := after matchId _ (operation.apply_eq_onRow found)
    exact (historyArmed_onRow_iff (armed matchId row found) matchId operation).mp later
  · intro unlisted
    have known : table.All fun _ row => row.HistoryArmed ∧ operation.FinishesUnlisted row :=
      fun matchId row found => ⟨armed matchId row found, unlisted matchId row found⟩
    refine (operation.rowSteps table).all known historyArmed_insertedRow ?_
    rintro matchId row _ ⟨held, condition⟩ rfl
    exact (historyArmed_onRow_iff held matchId operation).mpr condition

/-- Along a run every match waiting for history has an armed waiter, in every table visited,
exactly when no finish of the run selects a started live match whose `match_seq_num` is already
known. -/
theorem awaitingHistory_armed_iff (operations : List Operation) :
    (∀ visited, visited <+: operations →
      ∀ matchId row, runOperations Table.empty visited matchId = some row →
        row.status = .awaitingHistory →
        row.historyNextPollAt.isSome ∧ row.matchSeqNum.isNone) ↔
      ∀ before now threshold replayDelayMs,
        before ++ [.finishMissingLiveMatches now threshold replayDelayMs] <+: operations →
        ∀ matchId row, runOperations Table.empty before matchId = some row →
          finishSelects threshold row = true → 0 < row.liveDurationMax →
          row.matchSeqNum = none := by
  have armed_iff : ∀ table : Matches, ArmedMatches table ↔
      ∀ matchId row, table matchId = some row → row.status = .awaitingHistory →
        row.historyNextPollAt.isSome ∧ row.matchSeqNum.isNone := by
    intro table
    simp only [ArmedMatches, Table.All, HistoryArmed, historyWaiterPending, Bool.and_eq_true]
  simp only [← armed_iff]
  constructor
  · intro armed before now threshold replayDelayMs within matchId row found
    have here := armed before ((List.prefix_append _ _).trans within)
    have there := armed _ within
    rw [runOperations_append, runOperations_cons, runOperations_nil] at there
    exact (armedMatches_apply_iff here _).mp there matchId row found
  · intro unlisted visited within
    induction visited using List.reverseRecOn with
    | nil => exact Table.all_empty _
    | append_singleton before operation ih =>
        have armed := ih ((List.prefix_append _ _).trans within)
        rw [runOperations_append]
        refine (armedMatches_apply_iff armed operation).mpr fun matchId row found => ?_
        cases operation with
        | finishMissingLiveMatches now threshold replayDelayMs =>
            exact unlisted before now threshold replayDelayMs within matchId row found
        | _ => trivial

/-- A league page lists a match while it is live; the finish then leaves it waiting for history
outside the selection of the poller. -/
theorem listed_live_match_stranded :
    ∃ row, runOperations Table.empty
        [.touchMatchLive 0 ⟨7, fun _ => none, .liveLeague⟩, .noteLiveClock 7 30,
          .upsertHistoryMatches [⟨7, 1001, fun _ => none⟩], .noteLiveFeedMisses .liveLeague [],
          .finishMissingLiveMatches 50 1 60000] 7 = some row ∧
      row.status = .awaitingHistory ∧
      ¬ (row.historyNextPollAt.isSome ∧ row.matchSeqNum.isNone) := by
  exact ⟨_, rfl, by decide, by decide⟩

end DotaCollector
