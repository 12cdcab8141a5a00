import DotaCollector.Library.Schedule
import DotaCollector.Matches.System

/-!
# History misses between other writers

`recordHistoryPollMisses` reads the armed waiters in one statement and writes them back in
later ones, each guarded by the match id alone. Between the read of a match and its write any
other operation may take effect. The write then decides from the row it read: whether to fail
the match, and whether to arm the waiter again.
-/

namespace DotaCollector

/-- A loop of `recordHistoryPollMisses` in flight: its budget and the rows still to be written. -/
structure HistoryPoll where
  budget : HistoryBudget := ⟨0, 0, 0, 0⟩
  pending : List (MatchId × MissRead) := []

/-- The table and the history polls in flight. -/
structure PollState where
  table : Matches
  polls : Nat → HistoryPoll := fun _ => {}

/-- A statement of a history poll, or an operation of another job. -/
inductive PollEvent where
  | operation (operation : Operation)
  | select (poll : Nat) (matchIds : List MatchId) (budget : HistoryBudget)
  | update (poll : Nat) (now : Time)

/-- The state after one statement. -/
def PollState.next (state : PollState) : PollEvent → Option PollState
  | .operation operation => some { state with table := operation.apply state.table }
  | .select poll matchIds budget =>
      match (state.polls poll).pending with
      | [] => some
          { state with
            polls := Function.update state.polls poll
              { budget
                pending := selectHistoryMisses state.table matchIds } }
      | _ :: _ => none
  | .update poll now =>
      match (state.polls poll).pending with
      | [] => none
      | read :: pending => some
          { table := updateHistoryMiss now (state.polls poll).budget state.table read
            polls := Function.update state.polls poll { state.polls poll with pending } }

theorem PollState.next_update {state : PollState} {poll : Nat} {read : MatchId × MissRead}
    {pending : List (MatchId × MissRead)}
    (pending_eq : (state.polls poll).pending = read :: pending) (now : Time) :
    state.next (.update poll now) = some
      { table := updateHistoryMiss now (state.polls poll).budget state.table read
        polls := Function.update state.polls poll { state.polls poll with pending } } := by
  simp only [next, pending_eq]

/-! ## A poll which is not interrupted -/

private theorem run_updates (state : PollState) (poll : Nat) (now : Time) :
    Schedule.run PollState.next state
        (List.replicate (state.polls poll).pending.length (.update poll now)) =
      some
        { table := (state.polls poll).pending.foldl
            (updateHistoryMiss now (state.polls poll).budget) state.table
          polls := Function.update state.polls poll
            { state.polls poll with pending := [] } } := by
  generalize pending_eq : (state.polls poll).pending = pending
  induction pending generalizing state with
  | nil =>
      have idle : (state.polls poll) = { state.polls poll with pending := [] } := by
        rw [← pending_eq]
      simp [← idle]
  | cons read pending ih =>
      rw [List.length_cons, List.replicate_succ, Schedule.run_cons,
        PollState.next_update pending_eq]
      refine (ih _ (by simp)).trans ?_
      simp

/-- Without interruption the statements of a poll are `recordHistoryPollMisses`. -/
theorem run_poll_eq_recordHistoryPollMisses (table : Matches) (poll : Nat) (now : Time)
    (matchIds : List MatchId) (budget : HistoryBudget) :
    (Schedule.run PollState.next { table }
        (.select poll matchIds budget ::
          List.replicate (selectHistoryMisses table matchIds).length (.update poll now))).map
        PollState.table =
      some (recordHistoryPollMisses table now matchIds budget) := by
  rw [Schedule.run_cons]
  have selected := run_updates
    { table
      polls := Function.update (fun _ => {}) poll
        { budget
          pending := selectHistoryMisses table matchIds } } poll now
  simp only [Function.update_self] at selected
  simp [PollState.next, selected, recordHistoryPollMisses]

/-! ## What a write may undo -/

/-- A write keeps the status of a match which has left `awaiting_history`, and leaves a waiter
disarmed which another operation has cleared. -/
def KeepsProgress (before after : Matches) : Prop :=
  ∀ matchId row later, before matchId = some row → after matchId = some later →
    (row.status ≠ .awaitingHistory → later.status = row.status) ∧
      (row.historyNextPollAt = none → later.historyNextPollAt = none)

/-- Every write of a history poll keeps progress. -/
def UpdatesKeepProgress (state : PollState) : PollEvent → Prop
  | .update poll now => ∀ after, state.next (.update poll now) = some after →
      KeepsProgress state.table after.table
  | _ => True

/-- The row a poll is about to write has not moved since it was read: a match which the poll
fails still waits for history, or has failed already, and a waiter which it arms again is still
armed. -/
def WritesFresh (state : PollState) : PollEvent → Prop
  | .update poll _ => ∀ matchId read pending row,
      (state.polls poll).pending = (matchId, read) :: pending →
      state.table matchId = some row →
      if (state.polls poll).budget.fastLimit ≤ read.fastCount ∧
          (state.polls poll).budget.slowLimit ≤ read.slowCount then
        read.status = .awaitingHistory → row.status = .awaitingHistory ∨ row.status = .failed
      else row.historyNextPollAt ≠ none
  | _ => True

theorem MissRead.waiterDone_iff (read : MissRead) (budget : HistoryBudget) :
    read.waiterDone budget = true ↔
      budget.fastLimit ≤ read.fastCount ∧ budget.slowLimit ≤ read.slowCount := by
  rw [MissRead.waiterDone, decide_eq_true_eq]
  exact advanceHistoryMiss_failed_iff read.fastCount read.slowCount budget

/-- One write keeps progress exactly when its row has not moved in the way which matters. -/
theorem missSet_keeps_iff (read : MissRead) (now : Time) (budget : HistoryBudget)
    (row : MatchRow) :
    ((row.status ≠ .awaitingHistory → (read.set now budget row).status = row.status) ∧
        (row.historyNextPollAt = none →
          (read.set now budget row).historyNextPollAt = none)) ↔
      if budget.fastLimit ≤ read.fastCount ∧ budget.slowLimit ≤ read.slowCount then
        read.status = .awaitingHistory → row.status = .awaitingHistory ∨ row.status = .failed
      else row.historyNextPollAt ≠ none := by
  simp only [← read.waiterDone_iff]
  by_cases spent : read.waiterDone budget = true
  · simp only [spent, if_true, MissRead.set, MissRead.failMatch, Bool.true_and,
      decide_eq_true_eq]
    by_cases waiting : read.status = .awaitingHistory
    · simp only [waiting, if_true, implies_true, and_true, true_implies]
      constructor
      · intro kept
        by_cases still : row.status = .awaitingHistory
        · exact .inl still
        · exact .inr (kept still).symm
      · rintro (still | failed) moved
        · exact absurd still moved
        · exact failed.symm
    · simp [waiting]
  · simp [spent, MissRead.set, MissRead.failMatch]

theorem updatesKeepProgress_iff (state : PollState) (event : PollEvent) :
    UpdatesKeepProgress state event ↔ WritesFresh state event := by
  cases event with
  | operation | select => exact iff_of_true trivial trivial
  | update poll now =>
      simp only [UpdatesKeepProgress, WritesFresh]
      cases pending_eq : (state.polls poll).pending with
      | nil => simp [PollState.next, pending_eq]
      | cons head pending =>
          obtain ⟨matchId, read⟩ := head
          constructor
          · rintro keeps _ _ _ row ⟨⟩ found
            have written : updateHistoryMiss now (state.polls poll).budget state.table
                (matchId, read) matchId = some (read.set now (state.polls poll).budget row) := by
              simp [updateHistoryMiss, found]
            have kept := keeps _ (PollState.next_update pending_eq now) matchId row _ found written
            exact (missSet_keeps_iff read now _ row).mp kept
          · intro fresh after step other row later found foundLater
            rw [PollState.next_update pending_eq, Option.some_inj] at step
            subst step
            by_cases same : other = matchId
            · subst same
              simp only [updateHistoryMiss, Table.update_self, found, Option.map_some,
                Option.some_inj] at foundLater
              subst foundLater
              exact (missSet_keeps_iff read now _ row).mpr (fresh other read pending row rfl found)
            · simp only [updateHistoryMiss, Table.update_of_ne same, found, Option.some_inj]
                at foundLater
              subst foundLater
              exact ⟨fun _ => rfl, id⟩

/-- Along any interleaving, the history polls undo no progress exactly when every row they write
has not moved since they read it. -/
theorem historyMisses_keep_progress_iff (initial : PollState) (events : List PollEvent) :
    Schedule.Throughout PollState.next UpdatesKeepProgress initial events ↔
      Schedule.Throughout PollState.next WritesFresh initial events := by
  constructor
  · intro keeps
    exact keeps.mono fun state event => (updatesKeepProgress_iff state event).mp
  · intro fresh
    exact fresh.mono fun state event => (updatesKeepProgress_iff state event).mpr

/-- A match leaves its only live feed and waits for history. -/
def liveFinish : List PollEvent :=
  [.operation (.touchMatchLive 0 ⟨7, fun _ => none, .liveLeague⟩),
    .operation (.noteLiveClock 7 30),
    .operation (.noteLiveFeedMisses .liveLeague []),
    .operation (.finishMissingLiveMatches 50 1 60000)]

/-- A match whose details arrive between the read and the write of an exhausted poll is failed,
and a waiter which GetMatchHistory cleared in between is armed again. -/
theorem stale_history_miss_undoes_progress :
    ¬ Schedule.Throughout PollState.next UpdatesKeepProgress { table := Table.empty }
        ((liveFinish ++
          [.select 0 [7] ⟨0, 0, 5000, 60000⟩,
            .operation (.saveMatchFacts 60 ⟨7, some 1001, none, none, fun _ => none⟩ .gc)]) ++
          [.update 0 61]) ∧
      ¬ Schedule.Throughout PollState.next UpdatesKeepProgress { table := Table.empty }
        ((liveFinish ++
          [.select 0 [7] ⟨720, 1440, 5000, 60000⟩,
            .operation (.markHistoryAvailable 60 ⟨7, 1001, fun _ => none⟩)]) ++
          [.update 0 61]) := by
  constructor
  · intro keeps
    have kept := (keeps.back rfl).1 _ rfl 7 _ _ rfl rfl
    exact absurd (kept.1 (by rintro ⟨⟩)) (by rintro ⟨⟩)
  · intro keeps
    have kept := (keeps.back rfl).1 _ rfl 7 _ _ rfl rfl
    exact absurd (kept.2 rfl) (by rintro ⟨⟩)

end DotaCollector
