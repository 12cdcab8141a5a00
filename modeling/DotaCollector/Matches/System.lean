import DotaCollector.Library.Schedule
import DotaCollector.Matches.Operations

/-!
# Runs of operations on the `matches` table

Every writer of `matches` is one of the operations below, and a run is any finite sequence of
them. `recordHistoryPollMisses` is one operation here: its `SELECT` and its `UPDATE`s see the
same rows. The interleaved version is a system of its own.
-/

namespace DotaCollector

/-- The statuses with which the jobs mark a replay. -/
inductive ReplayMark where
  | replayStored
  | replayUnavailable
  deriving DecidableEq, Repr

/-- The match status a replay mark writes. -/
def ReplayMark.status : ReplayMark → MatchStatus
  | .replayStored => .replayStored
  | .replayUnavailable => .replayUnavailable

/-- The operations on the `matches` table. -/
inductive Operation where
  | touchMatchLive (now : Time) (sighting : LiveSighting)
  | noteLiveFeedSeen (now : Time) (feed : LiveIngest) (matchId : MatchId)
  | noteLiveFeedMisses (feed : LiveIngest) (seenIds : List MatchId)
  | noteLiveClock (matchId : MatchId) (duration : ℚ)
  | finishMissingLiveMatches (now : Time) (threshold : Nat) (replayDelayMs : Int)
  | clearServerSteamId (matchId : MatchId)
  | touchRealtimeSeen (now : Time) (matchId : MatchId)
  | markHistoryAvailable (now : Time) (listing : HistoryListing)
  | upsertHistoryMatches (listings : List HistoryListing)
  | recordHistoryPollMisses (now : Time) (matchIds : List MatchId) (budget : HistoryBudget)
  | insertUndiscoveredMatch (now : Time) (facts : MatchFacts) (fetched : Fetched)
  | saveMatchFacts (now : Time) (facts : MatchFacts) (fetched : Fetched)
  | linkSeries (matchId : MatchId) (seriesId : Int)
  | stampMatchSeqAttempt (matchId : MatchId) (nextAttemptAt : Option Time) (bump clear : Bool)
  | markSeqFetched (now : Time) (matchIds : List MatchId)
  | requeueLiveWaiting (now : Time)
  | ensureMatchStub (matchId : MatchId)
  | markMatchReplayStatus (now : Time) (matchId : MatchId) (mark : ReplayMark)
      (error : Option String) (errorKind : Option ErrorKind)
  | publishMatch (matchId : MatchId) (barracks : Option (Int × Int))

/-- The table after an operation. -/
def Operation.apply (table : Matches) : Operation → Matches
  | .touchMatchLive now sighting => DotaCollector.touchMatchLive table now sighting
  | .noteLiveFeedSeen now feed matchId => DotaCollector.noteLiveFeedSeen table now feed matchId
  | .noteLiveFeedMisses feed seenIds => DotaCollector.noteLiveFeedMisses table feed seenIds
  | .noteLiveClock matchId duration => DotaCollector.noteLiveClock table matchId duration
  | .finishMissingLiveMatches now threshold replayDelayMs =>
      DotaCollector.finishMissingLiveMatches table now threshold replayDelayMs
  | .clearServerSteamId matchId => DotaCollector.clearServerSteamId table matchId
  | .touchRealtimeSeen now matchId => DotaCollector.touchRealtimeSeen table now matchId
  | .markHistoryAvailable now listing => DotaCollector.markHistoryAvailable table now listing
  | .upsertHistoryMatches listings => DotaCollector.upsertHistoryMatches table listings
  | .recordHistoryPollMisses now matchIds budget =>
      DotaCollector.recordHistoryPollMisses table now matchIds budget
  | .insertUndiscoveredMatch now facts fetched =>
      DotaCollector.insertUndiscoveredMatch table now facts fetched
  | .saveMatchFacts now facts fetched => DotaCollector.saveMatchFacts table now facts fetched
  | .linkSeries matchId seriesId => DotaCollector.linkSeries table matchId seriesId
  | .stampMatchSeqAttempt matchId nextAttemptAt bump clear =>
      DotaCollector.stampMatchSeqAttempt table matchId nextAttemptAt bump clear
  | .markSeqFetched now matchIds => DotaCollector.markSeqFetched table now matchIds
  | .requeueLiveWaiting now => DotaCollector.requeueLiveWaiting table now
  | .ensureMatchStub matchId => DotaCollector.ensureMatchStub table matchId
  | .markMatchReplayStatus now matchId mark error errorKind =>
      DotaCollector.markMatchReplayStatus table now matchId mark.status error errorKind
  | .publishMatch matchId barracks => DotaCollector.publishMatch table matchId barracks

/-- The table after a run of operations. -/
def runOperations (table : Matches) (operations : List Operation) : Matches :=
  operations.foldl Operation.apply table

@[simp]
theorem runOperations_nil (table : Matches) : runOperations table [] = table := rfl

@[simp]
theorem runOperations_cons (table : Matches) (operation : Operation)
    (operations : List Operation) :
    runOperations table (operation :: operations) =
      runOperations (operation.apply table) operations := rfl

theorem runOperations_append (table : Matches) (front back : List Operation) :
    runOperations table (front ++ back) = runOperations (runOperations table front) back :=
  List.foldl_append

/-- What every operation preserves, every run preserves. -/
theorem runOperations_invariant (inv : Matches → Prop) {table : Matches}
    (preserved : ∀ {table} operation, inv table → inv (Operation.apply table operation))
    (start : inv table) (operations : List Operation) : inv (runOperations table operations) := by
  induction operations generalizing table with
  | nil => exact start
  | cons operation operations ih => exact ih (preserved operation start)

/-! ## One match at a time -/

/-- The listings of one match, in their order. -/
def listingsOf (matchId : MatchId) (listings : List HistoryListing) : List HistoryListing :=
  listings.filter fun listing => listing.matchId = matchId

/-- A row after its listings. -/
def MatchRow.relistAll (row : MatchRow) (listings : List HistoryListing) : MatchRow :=
  listings.foldl (fun row listing => listing.relist row) row

/-- The row an operation inserts for a match which has none. -/
def Operation.insertedRow (matchId : MatchId) : Operation → Option MatchRow
  | .touchMatchLive now sighting =>
      if matchId = sighting.matchId then some (sighting.fresh now) else none
  | .upsertHistoryMatches listings =>
      match listingsOf matchId listings with
      | [] => none
      | first :: later => some (first.fresh.relistAll later)
  | .insertUndiscoveredMatch now facts fetched =>
      if matchId = facts.matchId then some (facts.undiscovered now fetched) else none
  | .ensureMatchStub stub => if matchId = stub then some stubRow else none
  | _ => none

/-- What an operation leaves of the row of a match. -/
def Operation.onRow (matchId : MatchId) (row : MatchRow) : Operation → MatchRow
  | .touchMatchLive now sighting =>
      if matchId = sighting.matchId then sighting.merge now row else row
  | .noteLiveFeedSeen now feed seen =>
      if matchId = seen then
        liveSightingResumeSet now (feed = .liveLeague) (feed = .topLive) row
      else row
  | .noteLiveFeedMisses feed seenIds =>
      if missedBy feed seenIds matchId row then row.missPoll feed else row
  | .noteLiveClock timed duration =>
      if matchId = timed ∧ 0 < duration then row.noteClock duration else row
  | .finishMissingLiveMatches now threshold replayDelayMs =>
      if finishSelects threshold row then finishSet now replayDelayMs row else row
  | .clearServerSteamId cleared => if matchId = cleared then row.clearServer else row
  | .touchRealtimeSeen now seen => if matchId = seen then row.seenRealtime now else row
  | .markHistoryAvailable now listing =>
      if matchId = listing.matchId then listing.available now row else row
  | .upsertHistoryMatches listings => row.relistAll (listingsOf matchId listings)
  | .recordHistoryPollMisses now matchIds budget =>
      if matchId ∈ matchIds && row.historyWaiterPending then
        (MissRead.ofRow row).set now budget row
      else row
  | .insertUndiscoveredMatch _ _ _ => row
  | .saveMatchFacts now facts fetched =>
      if matchId = facts.matchId then facts.save now fetched row else row
  | .linkSeries linked seriesId => if matchId = linked then row.linkSeries seriesId else row
  | .stampMatchSeqAttempt stamped nextAttemptAt bump clear =>
      if matchId = stamped then row.stampAttempt nextAttemptAt bump clear else row
  | .markSeqFetched now matchIds => if matchId ∈ matchIds then row.stampSeq now else row
  | .requeueLiveWaiting now => if requeueSelects row then row.requeue now else row
  | .ensureMatchStub _ => row
  | .markMatchReplayStatus now marked mark error errorKind =>
      if matchId = marked then replayMarkSet now mark.status error errorKind row else row
  | .publishMatch published barracks =>
      if matchId = published then publishSet barracks row else row

/-- The row view of an operation. -/
abbrev Operation.RowSteps (operation : Operation) (before after : Matches) : Prop :=
  Table.Steps (fun matchId row => operation.insertedRow matchId = some row)
    (fun matchId before after => after = operation.onRow matchId before) before after

private theorem upsertHistoryMatches_row (listings : List HistoryListing) (table : Matches)
    (matchId : MatchId) :
    upsertHistoryMatches table listings matchId =
      match table matchId with
      | none => (Operation.upsertHistoryMatches listings).insertedRow matchId
      | some row => some (row.relistAll (listingsOf matchId listings)) := by
  induction listings generalizing table with
  | nil => cases found : table matchId <;> simp [upsertHistoryMatches, Operation.insertedRow,
      listingsOf, MatchRow.relistAll, found]
  | cons first listings ih =>
      have unfolded : upsertHistoryMatches table (first :: listings) =
          upsertHistoryMatches (upsertHistoryMatch table first) listings := rfl
      rw [unfolded, ih]
      by_cases same : first.matchId = matchId
      · subst same
        have chosen : listingsOf first.matchId (first :: listings) =
            first :: listingsOf first.matchId listings := by simp [listingsOf]
        cases found : table first.matchId with
        | none => simp [upsertHistoryMatch, Operation.insertedRow, found, chosen]
        | some row => simp [upsertHistoryMatch, found, chosen, MatchRow.relistAll]
      · have skipped : listingsOf matchId (first :: listings) = listingsOf matchId listings := by
          simp [listingsOf, same]
        have other : upsertHistoryMatch table first matchId = table matchId :=
          Table.upsert_of_ne (Ne.symm same) ..
        rw [other]
        cases found : table matchId <;> simp [Operation.insertedRow, skipped]

private theorem recordHistoryPollMisses_eq_updateWhere (table : Matches) (now : Time)
    (matchIds : List MatchId) (budget : HistoryBudget) :
    recordHistoryPollMisses table now matchIds budget =
      table.updateWhere (fun matchId row => matchId ∈ matchIds && row.historyWaiterPending)
        (fun row => (MissRead.ofRow row).set now budget row) := by
  have loop := Table.foldl_update_eq_updateWhere table (List.nodup_dedup matchIds)
    MatchRow.historyWaiterPending MissRead.ofRow fun read => read.set now budget
  simp only [List.mem_dedup] at loop
  exact loop

/-- Every operation acts on each match by itself. -/
theorem Operation.rowSteps (operation : Operation) (table : Matches) :
    operation.RowSteps table (operation.apply table) := by
  cases operation with
  | touchMatchLive now sighting =>
      refine Table.steps_upsert (fun _ => ?_) (fun row _ => ?_) fun other row ne _ => ?_
      · simp [insertedRow]
      · simp [onRow]
      · simp [onRow, ne]
  | noteLiveFeedMisses feed seenIds =>
      exact Table.steps_updateWhere (fun _ _ _ chosen => by simp [onRow, chosen])
        fun _ _ _ skipped => by simp [onRow, skipped]
  | noteLiveClock timed duration =>
      by_cases positive : 0 < duration
      · simp only [apply, DotaCollector.noteLiveClock, positive, if_true]
        exact Table.steps_update (fun row _ => by simp [onRow, positive])
          fun other row ne _ => by simp [onRow, ne]
      · simp only [apply, DotaCollector.noteLiveClock, positive, if_false]
        exact Table.steps_refl (fun _ _ => by simp [onRow, positive]) table
  | finishMissingLiveMatches now threshold replayDelayMs =>
      exact Table.steps_updateWhere (fun _ _ _ chosen => by simp [onRow, chosen])
        fun _ _ _ skipped => by simp [onRow, skipped]
  | upsertHistoryMatches listings =>
      intro matchId
      rw [apply, upsertHistoryMatches_row]
      cases found : table matchId with
      | none =>
          cases inserted : (Operation.upsertHistoryMatches listings).insertedRow matchId with
          | none => exact .absent
          | some row => exact .insert inserted
      | some row => exact .change rfl
  | recordHistoryPollMisses now matchIds budget =>
      rw [apply, recordHistoryPollMisses_eq_updateWhere]
      exact Table.steps_updateWhere (fun _ _ _ chosen => by simp only [onRow, chosen, if_true])
        fun _ _ _ skipped => by
          simp only [onRow, skipped, Bool.false_eq_true, if_false]
  | insertUndiscoveredMatch now facts fetched =>
      exact Table.steps_insertNew (fun _ => by simp [insertedRow]) fun _ _ _ => by simp [onRow]
  | ensureMatchStub stub =>
      exact Table.steps_insertNew (fun _ => by simp [insertedRow]) fun _ _ _ => by simp [onRow]
  | markSeqFetched now matchIds =>
      exact Table.steps_updateWhere
        (fun _ _ _ chosen => by simp [onRow, of_decide_eq_true chosen])
        fun _ _ _ skipped => by simp [onRow, of_decide_eq_false skipped]
  | requeueLiveWaiting now =>
      exact Table.steps_updateWhere (fun _ _ _ chosen => by simp [onRow, chosen])
        fun _ _ _ skipped => by simp [onRow, skipped]
  | _ =>
      exact Table.steps_update (fun row _ => by simp [onRow])
        fun other row ne _ => by simp [onRow, ne]

/-- An operation keeps every row and leaves its row view. -/
theorem Operation.apply_eq_onRow {table : Matches} {matchId : MatchId} {row : MatchRow}
    (found : table matchId = some row) (operation : Operation) :
    operation.apply table matchId = some (operation.onRow matchId row) := by
  have step := operation.rowSteps table matchId
  rw [found] at step
  generalize after_eq : operation.apply table matchId = after at step
  cases step with
  | change changed => rw [changed]

theorem isSome_runOperations {table : Matches} {matchId : MatchId}
    (present : (table matchId).isSome) (operations : List Operation) :
    (runOperations table operations matchId).isSome := by
  induction operations generalizing table with
  | nil => exact present
  | cons operation operations ih =>
      obtain ⟨row, found⟩ := Option.isSome_iff_exists.mp present
      refine ih ?_
      rw [operation.apply_eq_onRow found]
      rfl

end DotaCollector
