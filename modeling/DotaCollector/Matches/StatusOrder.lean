import DotaCollector.Matches.System

/-!
# Match statuses only advance

The statuses are ranked discovery, details, replay, parsed. No operation lowers the rank of a
match. The one statement which needs to know more than the status is `saveMatchFacts` from the
sequence stream: it recomputes `details_ready` from `details_fetched_at`, so a match in
`details_ready` must carry that stamp.
-/

namespace DotaCollector

namespace MatchRow

/-- A match with its details ready has the time at which they were fetched. -/
def DetailsStamped (row : MatchRow) : Prop :=
  row.status = .detailsReady → row.detailsFetchedAt ≠ none

/-- A change which keeps the stamp and does not lower the rank. -/
def Advances (before after : MatchRow) : Prop :=
  before.DetailsStamped → after.DetailsStamped ∧ before.status.rank ≤ after.status.rank

theorem Advances.refl (row : MatchRow) : row.Advances row :=
  fun stamped => ⟨stamped, Nat.le_refl _⟩

theorem Advances.trans {first second third : MatchRow} (left : first.Advances second)
    (right : second.Advances third) : first.Advances third := by
  intro stamped
  obtain ⟨stampedSecond, toSecond⟩ := left stamped
  obtain ⟨stampedThird, toThird⟩ := right stampedSecond
  exact ⟨stampedThird, toSecond.trans toThird⟩

/-- A change which leaves the status and the stamp alone. -/
theorem advances_of_eq {before after : MatchRow} (status : after.status = before.status)
    (stamp : after.detailsFetchedAt = before.detailsFetchedAt) : before.Advances after := by
  intro stamped
  refine ⟨fun ready => ?_, by rw [status]⟩
  rw [stamp]
  exact stamped (status ▸ ready)

/-- A conditional change. -/
theorem advances_ite {condition : Prop} [Decidable condition] {row next : MatchRow}
    (changed : condition → row.Advances next) :
    row.Advances (if condition then next else row) := by
  split
  · rename_i holds
    exact changed holds
  · exact .refl row

end MatchRow

open MatchRow

/-! ## Live sightings and finishes -/

/-- A live sighting keeps a status past discovery and turns the others live. -/
theorem liveSightingResumeSet_status (now : Time) (resetLive resetTop : Bool) (row : MatchRow) :
    (liveSightingResumeSet now resetLive resetTop row).status =
      if 0 < row.status.rank then row.status else .live := by
  simp only [liveSightingResumeSet, mem_keepOnLiveSighting_iff]

theorem advances_liveSighting (now : Time) (resetLive resetTop : Bool) (row : MatchRow) :
    row.Advances (liveSightingResumeSet now resetLive resetTop row) := by
  intro stamped
  constructor
  · intro ready
    rw [liveSightingResumeSet_status] at ready
    split at ready
    · exact stamped ready
    · cases ready
  · rw [liveSightingResumeSet_status]
    split
    · exact Nat.le_refl _
    · omega

theorem advances_merge (now : Time) (sighting : LiveSighting) (row : MatchRow) :
    row.Advances (sighting.merge now row) := by
  have resumed := advances_liveSighting now (sighting.ingest = .liveLeague)
    (sighting.ingest = .topLive) row
  exact resumed.trans (advances_of_eq rfl rfl)

/-- A finish only moves a live match. -/
theorem live_of_finishSelects {threshold : Nat} {row : MatchRow}
    (selected : finishSelects threshold row = true) : row.status = .live := by
  simp only [finishSelects, Bool.and_eq_true, decide_eq_true_eq] at selected
  exact selected.1.1.1

theorem advances_finishSet {row : MatchRow} (live : row.status = .live) (now : Time)
    (replayDelayMs : Int) : row.Advances (finishSet now replayDelayMs row) := by
  intro _
  constructor
  · intro ready
    simp only [finishSet] at ready
    split at ready <;> cases ready
  · simp [live, MatchStatus.rank]

/-! ## Match history -/

theorem advances_available (now : Time) (listing : HistoryListing) (row : MatchRow) :
    row.Advances (listing.available now row) := by
  rw [HistoryListing.available]
  split
  · exact .refl row
  · intro stamped
    constructor
    · intro ready
      simp only at ready
      split at ready
      · cases ready
      · exact stamped ready
    · simp only
      split
      · cases status : row.status <;> simp_all [MatchStatus.rank]
      · exact Nat.le_refl _

theorem advances_relist (listing : HistoryListing) (row : MatchRow) :
    row.Advances (listing.relist row) := by
  intro stamped
  simp only [DetailsStamped, HistoryListing.relist]
  split
  · exact ⟨stamped, Nat.le_refl _⟩
  · refine ⟨by rintro ⟨⟩, ?_⟩
    cases status : row.status <;> simp_all [MatchStatus.rank]

theorem advances_relistAll (row : MatchRow) (listings : List HistoryListing) :
    row.Advances (row.relistAll listings) := by
  induction listings generalizing row with
  | nil => exact .refl row
  | cons listing listings ih => exact (advances_relist listing row).trans (ih _)

/-- A miss which read the row it writes only fails a match still waiting for history. -/
theorem advances_missSet (now : Time) (budget : HistoryBudget) (row : MatchRow) :
    row.Advances ((MissRead.ofRow row).set now budget row) := by
  intro stamped
  simp only [DetailsStamped, MissRead.set]
  split
  · rename_i failing
    have waiting : row.status = .awaitingHistory := by
      simp only [MissRead.failMatch, MissRead.ofRow, Bool.and_eq_true] at failing
      exact of_decide_eq_true failing.2
    exact ⟨by rintro ⟨⟩, by simp [waiting, MatchStatus.rank]⟩
  · exact ⟨stamped, Nat.le_refl _⟩

/-! ## Post-game facts -/

/-- Saved facts leave `details_ready` only together with the stamp. -/
theorem detailsStamped_save (now : Time) (facts : MatchFacts) (fetched : Fetched)
    (row : MatchRow) : (facts.save now fetched row).DetailsStamped := by
  intro ready
  simp only [MatchFacts.save] at ready ⊢
  split at ready
  · rename_i kept
    simp [ready] at kept
  · split at ready
    · rename_i known
      rcases known with gc | fetchedBefore
      · rw [if_pos gc]
        exact Nullable.coalesce_ne_none_right _ (by simp)
      · split
        · exact Nullable.coalesce_ne_none_left fetchedBefore _
        · exact fetchedBefore
    · cases ready

theorem advances_save (now : Time) (facts : MatchFacts) (fetched : Fetched) (row : MatchRow) :
    row.Advances (facts.save now fetched row) := by
  intro stamped
  refine ⟨detailsStamped_save now facts fetched row, ?_⟩
  simp only [MatchFacts.save]
  split
  · exact Nat.le_refl _
  · split
    · cases status : row.status <;> simp_all [MatchStatus.rank]
    · rename_i unknown
      -- Without the stamp a sequence record turns the match back to `awaiting_details`.
      have notReady : row.status ≠ .detailsReady := fun ready =>
        unknown (.inr (stamped ready))
      cases status : row.status <;> simp_all [MatchStatus.rank]

/-! ## Replays -/

theorem advances_replayMark (now : Time) (mark : ReplayMark) (error : Option String)
    (errorKind : Option ErrorKind) (row : MatchRow) :
    row.Advances (replayMarkSet now mark.status error errorKind row) := by
  intro stamped
  simp only [DetailsStamped, replayMarkSet]
  split
  · exact ⟨stamped, Nat.le_refl _⟩
  · constructor
    · cases mark <;> rintro ⟨⟩
    · cases mark <;> cases status : row.status <;>
        simp_all [MatchStatus.rank, ReplayMark.status]

theorem advances_publish (barracks : Option (Int × Int)) (row : MatchRow) :
    row.Advances (publishSet barracks row) := by
  intro stamped
  simp only [DetailsStamped, publishSet]
  split
  · refine ⟨by rintro ⟨⟩, ?_⟩
    cases row.status <;> simp [MatchStatus.rank]
  · exact ⟨stamped, Nat.le_refl _⟩

/-! ## Operations -/

/-- Every operation advances every match. -/
theorem advances_onRow (matchId : MatchId) (row : MatchRow) (operation : Operation) :
    row.Advances (operation.onRow matchId row) := by
  cases operation with
  | touchMatchLive now sighting => exact advances_ite fun _ => advances_merge now sighting row
  | noteLiveFeedSeen now feed seen =>
      exact advances_ite fun _ => advances_liveSighting now _ _ row
  | noteLiveFeedMisses feed seenIds =>
      refine advances_ite fun _ => ?_
      cases feed <;> exact advances_of_eq rfl rfl
  | finishMissingLiveMatches now threshold replayDelayMs =>
      exact advances_ite fun selected =>
        advances_finishSet (live_of_finishSelects selected) now replayDelayMs
  | markHistoryAvailable now listing =>
      exact advances_ite fun _ => advances_available now listing row
  | upsertHistoryMatches listings => exact advances_relistAll row _
  | recordHistoryPollMisses now matchIds budget =>
      exact advances_ite fun _ => advances_missSet now budget row
  | insertUndiscoveredMatch | ensureMatchStub => exact .refl row
  | saveMatchFacts now facts fetched =>
      exact advances_ite fun _ => advances_save now facts fetched row
  | linkSeries linked seriesId =>
      exact advances_ite fun _ => advances_ite fun _ => advances_of_eq rfl rfl
  | stampMatchSeqAttempt stamped nextAttemptAt bump clear =>
      refine advances_ite fun _ => ?_
      rw [MatchRow.stampAttempt]
      split <;> exact advances_of_eq rfl rfl
  | markMatchReplayStatus now marked mark error errorKind =>
      exact advances_ite fun _ => advances_replayMark now mark error errorKind row
  | publishMatch published barracks =>
      exact advances_ite fun _ => advances_publish barracks row
  | _ => exact advances_ite fun _ => advances_of_eq rfl rfl

/-- Inserted rows carry the stamp. -/
theorem detailsStamped_insertedRow {operation : Operation} {matchId : MatchId} {row : MatchRow}
    (inserted : operation.insertedRow matchId = some row) : row.DetailsStamped := by
  cases operation with
  | touchMatchLive now sighting =>
      obtain ⟨-, ⟨⟩⟩ := Option.ite_none_right_eq_some.mp inserted
      rintro ⟨⟩
  | upsertHistoryMatches listings =>
      simp only [Operation.insertedRow] at inserted
      split at inserted
      · cases inserted
      · rename_i first later _
        cases inserted
        have fresh : first.fresh.DetailsStamped := by rintro ⟨⟩
        exact (advances_relistAll first.fresh later fresh).1
  | insertUndiscoveredMatch now facts fetched =>
      obtain ⟨-, ⟨⟩⟩ := Option.ite_none_right_eq_some.mp inserted
      cases fetched <;> simp [DetailsStamped, MatchFacts.undiscovered]
  | ensureMatchStub stub =>
      obtain ⟨-, ⟨⟩⟩ := Option.ite_none_right_eq_some.mp inserted
      rintro ⟨⟩
  | _ => cases inserted

/-! ## Runs -/

/-- Every row of the table carries the stamp its status asks for. -/
def StampedMatches (table : Matches) : Prop :=
  table.All fun _ row => row.DetailsStamped

theorem StampedMatches.apply {table : Matches} (stamped : StampedMatches table)
    (operation : Operation) : StampedMatches (operation.apply table) :=
  (operation.rowSteps table).all stamped detailsStamped_insertedRow
    fun {_ _ _} held changed => changed ▸ (advances_onRow _ _ operation held).1

theorem stampedMatches_runOperations (operations : List Operation) :
    StampedMatches (runOperations Table.empty operations) :=
  runOperations_invariant StampedMatches
    (fun operation stamped => stamped.apply operation) (Table.all_empty _) operations

/-- The rank of a status has not fallen. -/
def RankLe (before after : MatchRow) : Prop := before.status.rank ≤ after.status.rank

theorem RankLe.trans {first second third : MatchRow} (left : RankLe first second)
    (right : RankLe second third) : RankLe first third :=
  Nat.le_trans left right

theorem evolves_apply {table : Matches} (stamped : StampedMatches table)
    (operation : Operation) : table.Evolves RankLe (operation.apply table) :=
  (operation.rowSteps table).evolves stamped
    fun {_ _ _} held changed => changed ▸ (advances_onRow _ _ operation held).2

theorem evolves_runOperations {table : Matches} (stamped : StampedMatches table)
    (operations : List Operation) : table.Evolves RankLe (runOperations table operations) := by
  induction operations generalizing table with
  | nil => exact Table.evolves_refl (fun row => Nat.le_refl row.status.rank) _
  | cons operation operations ih =>
      exact (evolves_apply stamped operation).trans (ih (stamped.apply operation)) RankLe.trans

/-- Whatever happened before, and whatever happens next, a match stays in the table; `parsed` is
never left, a replay status is only left for another one or for `parsed`, and `details_ready`
never falls back to discovery. -/
theorem matchStatus_never_backwards (past future : List Operation) (matchId : MatchId)
    (row : MatchRow) (found : runOperations Table.empty past matchId = some row) :
    ∃ later, runOperations Table.empty (past ++ future) matchId = some later ∧
      (row.status = .parsed → later.status = .parsed) ∧
      (row.status ∈ [.awaitingReplay, .replayStored, .replayUnavailable] →
        later.status ∈ [.awaitingReplay, .replayStored, .replayUnavailable, .parsed]) ∧
      (row.status = .detailsReady →
        later.status ∉ [.discovered, .live, .notStarted, .awaitingHistory, .awaitingDetails,
          .failed]) := by
  obtain ⟨later, reached, advanced⟩ :=
    evolves_runOperations (stampedMatches_runOperations past) future matchId row found
  rw [RankLe] at advanced
  refine ⟨later, by rw [runOperations_append, reached], ?_, ?_, ?_⟩
  · intro parsed
    rw [parsed] at advanced
    cases status : later.status <;> simp_all [MatchStatus.rank]
  · intro replay
    have ranked : 2 ≤ later.status.rank := by
      refine Nat.le_trans ?_ advanced
      cases status : row.status <;> simp_all [MatchStatus.rank]
    cases status : later.status <;> simp_all [MatchStatus.rank]
  · intro ready
    rw [ready] at advanced
    cases status : later.status <;> simp_all [MatchStatus.rank]

/-- A match with its details ready survives a live sighting and a sequence record. -/
theorem matchStatus_never_backwards_ready :
    ∃ later,
      runOperations Table.empty
        ([.insertUndiscoveredMatch 0 ⟨7, none, none, none, fun _ => none⟩ .gc] ++
          [.touchMatchLive 5 ⟨7, fun _ => none, .topLive⟩,
            .saveMatchFacts 9 ⟨7, some 3, none, none, fun _ => none⟩ .seq]) 7 = some later ∧
      later.status ∉ [.discovered, .live, .notStarted, .awaitingHistory, .awaitingDetails,
        .failed] := by
  obtain ⟨later, reached, -, -, ready⟩ := matchStatus_never_backwards
    [.insertUndiscoveredMatch 0 ⟨7, none, none, none, fun _ => none⟩ .gc]
    [.touchMatchLive 5 ⟨7, fun _ => none, .topLive⟩,
      .saveMatchFacts 9 ⟨7, some 3, none, none, fun _ => none⟩ .seq] 7 _ rfl
  exact ⟨later, reached, ready rfl⟩

end DotaCollector
